import Gazetteer.Proofs.Chain.Overflow
import Gazetteer.Proofs.Keyed.Map
import Gazetteer.Proofs.Pool.Twins

/-! Chains grow and share nothing. A page is linked once, to a page that was blank until then and that
takes a record in the same call, and it keeps its link from then on; so the links of all chains
together form paths that have no page in common, and what was put in a chain stays on it. -/
namespace Gazetteer.Chain

variable {view : Nat → Block} {p q : Pool} {maxPages : Nat}

/-- Pages are formatted below `maxPages` only, and links lead to pages with records, to each page
from one other page at most. -/
structure Paths (view : Nat → Block) (maxPages : Nat) : Prop where
  inside : ∀ id, (view id).isFormatted = true → id < maxPages
  target : ∀ id next, Linked view id next →
    (view next).isFormatted = true ∧ (view next).records ≠ [] ∧ next ≠ id
  apart : ∀ id other next, Linked view id next → Linked view other next → id = other

theorem paths_of_blank (blank : ∀ id, (view id).isFormatted = false) : Paths view maxPages := by
  have unlinked : ∀ id next, ¬ Linked view id next := fun id => not_linked_of_blank (blank id)
  refine ⟨?_, fun id next linked => (unlinked id next linked).elim,
    fun id _ next linked => (unlinked id next linked).elim⟩
  intro id formatted
  rw [blank id] at formatted
  cases formatted

theorem Paths.lt_of_reaches (h : Paths view maxPages) {home id : Nat} (inside : home < maxPages)
    (reached : Reaches view home id) : id < maxPages := by
  rcases Relation.ReflTransGen.cases_tail reached with same | ⟨last, -, linked⟩
  · exact same ▸ inside
  · exact h.inside id (h.target last id linked).1

theorem Room.place_inside {length home place : Nat} {growth : Pool.Changes}
    (h : Room view maxPages length home place growth) (paths : Paths view maxPages)
    (inside : home < maxPages) : place < maxPages := by
  cases h with
  | found passed accepted => exact paths.lt_of_reaches inside passed.reaches
  | grown passed refused unlinked blank least free linkable => exact free

theorem append_paths {home : Nat} {value : List UInt8} {place : RecordId} (intact : p.Intact)
    (paths : Paths p.view maxPages) (inside : home < maxPages)
    (h : append home value maxPages p = (.ok place, q)) : Paths q.view maxPages := by
  have filed := intact.coherent.filed
  obtain ⟨last, links⟩ := append_new_link filed h
  obtain ⟨-, appends⟩ := append_intact intact h
  have ready := append_isFormatted_iff filed h
  refine ⟨?_, ?_, ?_⟩
  · intro id formatted
    rcases (ready id).mp formatted with old | rfl
    · exact paths.inside id old
    · obtain ⟨growth, room, -⟩ := append_view filed h
      exact room.place_inside paths inside
  · intro id next linked
    rcases links id next linked with known | ⟨rfl, rfl, formatted, blank⟩
    · obtain ⟨formatted, holds, other⟩ := paths.target id next known
      refine ⟨(ready next).mpr (Or.inl formatted), ?_, other⟩
      rw [appends.records]
      split
      · simp
      · exact holds
    · refine ⟨(ready _).mpr (Or.inr rfl), ?_, ?_⟩
      · rw [appends.records, if_pos rfl]
        simp
      · rintro same
        rw [same, formatted] at blank
        cases blank
  · -- a page that is linked is formatted, so the page of a new link has no other
    have fresh : ∀ id, (p.view place.page).isFormatted = false → ¬ Linked p.view id place.page := by
      intro id blank known
      rw [(paths.target id _ known).1] at blank
      cases blank
    intro id other next first second
    rcases links id next first with known | ⟨rfl, rfl, -, blank⟩
    · rcases links other next second with also | ⟨rfl, rfl, -, blank⟩
      · exact paths.apart id other next known also
      · exact (fresh id blank known).elim
    · rcases links other _ second with known | ⟨same, -, -, -⟩
      · exact (fresh other blank known).elim
      · exact same.symm

/-- An append that answered: the chain, the record, and the place that was answered. -/
structure Entry where
  home : Nat
  value : List UInt8
  place : RecordId

/-- Chains in use. `entries` has the appends that answered, the oldest first. -/
structure Session extends Pool.Usage where
  entries : List Entry := []

namespace Session

variable {s t : Session}

def start (disk : Disk) (buffer : BufferSettings) : Session := { pool := .over disk buffer }

def append (maxPages : Nat) (s : Session) (plan : FaultPlan) (home : Nat) (value : List UInt8) :
    Session :=
  match Chain.append home value maxPages (s.pool.failing plan) with
  | (.ok place, pool) => { pool, entries := s.entries ++ [⟨home, value, place⟩] }
  | (.error _, pool) => { s with pool }

def flush (s : Session) (plan : FaultPlan) : Session :=
  { s with toUsage := s.toUsage.flush plan }

def drop (s : Session) : Session := { s with toUsage := s.toUsage.drop }

/-- One call, in which the disk fails as planned. Pages are dropped only behind a flush that
answered, if nothing was appended since. -/
inductive Step (maxPages : Nat) (s : Session) : Session → Prop where
  | append (plan : FaultPlan) {home : Nat} (inside : home < maxPages) (value : List UInt8) :
      Step maxPages s (s.append maxPages plan home value)
  | flush (plan : FaultPlan) : Step maxPages s (s.flush plan)
  | drop (flushed : s.flushed = true) : Step maxPages s s.drop

/-- The record of an entry is where the append put it, on the chain that it was put in. -/
structure Holds (view : Nat → Block) (e : Entry) : Prop where
  readable : (view e.place.page).record? e.place.slot = some e.value
  reached : Reaches view e.home e.place.page

structure Valid (maxPages : Nat) (s : Session) : Prop extends s.toUsage.Sound where
  paths : Paths s.pool.view maxPages
  places : (s.entries.map Entry.place).Nodup
  held : ∀ e ∈ s.entries, Holds s.pool.view e

/-- What no call takes back: links, and the places of the records. -/
structure Extends (s t : Session) : Prop where
  linked : ∀ id next, Linked s.pool.view id next → Linked t.pool.view id next
  entries : s.entries <+: t.entries

theorem Extends.refl (s : Session) : Extends s s := ⟨fun _ _ linked => linked, List.prefix_rfl⟩

theorem Extends.trans {u : Session} (first : Extends s t) (later : Extends t u) : Extends s u :=
  ⟨fun id next linked => later.linked id next (first.linked id next linked),
    first.entries.trans later.entries⟩

theorem Extends.of_view_eq {u : Pool.Usage} (same : u.pool.view = s.pool.view) :
    Extends s { s with toUsage := u } := by
  refine ⟨?_, List.prefix_rfl⟩
  rw [same]
  exact fun _ _ linked => linked

theorem Valid.of_view_eq {u : Pool.Usage} (h : s.Valid maxPages) (sound : u.Sound)
    (same : u.pool.view = s.pool.view) : Valid maxPages { s with toUsage := u } := by
  refine ⟨sound, ?_, h.places, ?_⟩
  · rw [same]
    exact h.paths
  · rw [same]
    exact h.held

theorem valid_start {disk : Disk} (empty : disk.medium.IsEmpty) (buffer : BufferSettings) :
    (start disk buffer).Valid maxPages where
  toSound := .of_intact (Pool.intact_over empty buffer)
  paths := by
    refine paths_of_blank fun id => ?_
    change ((Pool.over disk buffer).view id).isFormatted = false
    rw [Pool.view_over empty]
    exact Block.isFormatted_zero
  places := List.nodup_nil
  held := by
    intro e entered
    cases entered

theorem Holds.append {home : Nat} {value : List UInt8} {place : RecordId} {before after : Nat → Block}
    {e : Entry} (h : Holds before e) (appends : Appends before after home value place)
    (sound : ∀ id, (before id).Sound) : Holds after e :=
  ⟨appends.record?_of_some sound h.readable, appends.reaches_of_reaches h.reached⟩

theorem Valid.append (h : s.Valid maxPages) (plan : FaultPlan) {home : Nat}
    (inside : home < maxPages) (value : List UInt8) :
    (s.append maxPages plan home value).Valid maxPages ∧
      Extends s (s.append maxPages plan home value) := by
  have intact := h.intact.failing plan
  unfold Session.append
  split
  · next place pool call =>
    obtain ⟨after, appends⟩ := append_intact intact call
    refine ⟨⟨.of_intact after, append_paths intact h.paths inside call, ?_, ?_⟩,
      appends.linked, List.prefix_append _ _⟩
    · rw [List.map_append, List.nodup_append]
      refine ⟨h.places, List.nodup_singleton _, ?_⟩
      intro used old new taken
      cases List.mem_singleton.mp taken
      -- a place that was answered holds a record, and the new place was free
      obtain ⟨e, entered, rfl⟩ := List.mem_map.mp old
      rintro (same : e.place = place)
      have free := appends.record?_free intact.sound
      rw [← same, Pool.view_failing, (h.held e entered).readable] at free
      cases free
    · intro e entered
      rcases List.mem_append.mp entered with old | new
      · exact (h.held e old).append appends intact.sound
      · cases List.mem_singleton.mp new
        exact ⟨appends.record?_place, appends.reaches⟩
  · next fault pool call =>
    have loaded := append_error call
    have sound : Pool.Usage.Sound { s.toUsage with pool } :=
      ⟨intact.of_loads loaded, fun flushed => Pool.Loads.clean loaded (h.clean flushed)⟩
    exact ⟨h.of_view_eq sound loaded.view_eq, .of_view_eq loaded.view_eq⟩

theorem append_of_ok {plan : FaultPlan} {home : Nat} {value : List UInt8} {place : RecordId}
    (answered : Chain.append home value maxPages (s.pool.failing plan) = (.ok place, p)) :
    s.append maxPages plan home value =
      { pool := p, entries := s.entries ++ [⟨home, value, place⟩] } := by
  rw [Session.append, answered]

theorem Valid.step (h : s.Valid maxPages) (step : Step maxPages s t) :
    t.Valid maxPages ∧ Extends s t := by
  cases step with
  | append plan inside value => exact h.append plan inside value
  | flush plan =>
    obtain ⟨sound, same⟩ := h.toSound.flush plan
    exact ⟨h.of_view_eq sound same, .of_view_eq same⟩
  | drop flushed =>
    obtain ⟨sound, same⟩ := h.toSound.drop flushed
    exact ⟨h.of_view_eq sound same, .of_view_eq same⟩

theorem Valid.run (h : s.Valid maxPages) (run : Relation.ReflTransGen (Step maxPages) s t) :
    t.Valid maxPages ∧ Extends s t := by
  induction run with
  | refl => exact ⟨h, .refl s⟩
  | tail _ step ih =>
    obtain ⟨valid, earlier⟩ := ih
    obtain ⟨next, later⟩ := valid.step step
    exact ⟨next, earlier.trans later⟩

/-- In every state the links form paths of pages that hold records, apart from one another; and from
one state to a later one no link and no record is lost. -/
theorem paths_of_run {disk : Disk} (empty : disk.medium.IsEmpty) (buffer : BufferSettings)
    (early : Relation.ReflTransGen (Step maxPages) (start disk buffer) s)
    (late : Relation.ReflTransGen (Step maxPages) s t) :
    (∀ id, (t.pool.view id).isFormatted = true → id < maxPages) ∧
    (∀ id next, Linked t.pool.view id next →
      (t.pool.view next).isFormatted = true ∧ (t.pool.view next).records ≠ [] ∧ next ≠ id) ∧
    (∀ id other next, Linked t.pool.view id next → Linked t.pool.view other next → id = other) ∧
    (∀ id next, Linked s.pool.view id next → Linked t.pool.view id next) ∧
    s.entries <+: t.entries ∧ (t.entries.map Entry.place).Nodup ∧
    ∀ e ∈ t.entries, (t.pool.view e.place.page).record? e.place.slot = some e.value ∧
      Reaches t.pool.view e.home e.place.page ∧
      ∀ plan answer q, Keyed.recordAt e.place (t.pool.failing plan) = (.ok answer, q) →
        answer = some e.value := by
  obtain ⟨first, -⟩ := (valid_start empty buffer).run early
  obtain ⟨valid, extended⟩ := first.run late
  obtain ⟨inside, target, apart⟩ := valid.paths
  refine ⟨inside, target, apart, extended.linked, extended.entries, valid.places, ?_⟩
  intro e entered
  obtain ⟨readable, reached⟩ := valid.held e entered
  refine ⟨readable, reached, ?_⟩
  intro plan answer q answered
  rw [Keyed.recordAt_ok answered, Pool.view_failing]
  exact readable

/-- A chain that grows by a page, and that page read again behind a flush. -/
theorem paths_behind_overflow : ∃ (s t : Session) (long : List UInt8),
    Relation.ReflTransGen (Step 2) (start .inMemory {}) s ∧
    Relation.ReflTransGen (Step 2) s t ∧ t.pool.cached = ∅ ∧
    s.entries = [⟨0, long, ⟨0, 0⟩⟩, ⟨0, [7], ⟨1, 0⟩⟩] ∧
    Linked t.pool.view 0 1 ∧ (t.pool.view 1).record? 0 = some [7] ∧
    ∀ id other, Linked t.pool.view id 1 → Linked t.pool.view other 1 → id = other := by
  obtain ⟨long, fills⟩ : ∃ long : List UInt8, long.length = Block.maxRecord :=
    ⟨List.replicate _ 7, List.length_replicate⟩
  have empty : Disk.inMemory.medium.IsEmpty := rfl
  have fits : [(7 : UInt8)].length ≤ Block.maxRecord := by decide
  have linkable : 2 < linkLimit := by decide
  obtain ⟨p, q, first, second, intact, isOpen, -, linked, -⟩ :=
    append_overflows empty rfl {} fills fits Nat.one_lt_two linkable
  have here : Step 2 (start .inMemory {}) _ := .append {} Nat.two_pos long
  rw [append_of_ok first] at here
  have there : Step 2 { pool := p, entries := [⟨0, long, ⟨0, 0⟩⟩] } _ :=
    .append {} Nat.two_pos [7]
  rw [append_of_ok second] at there
  let s : Session := { pool := q, entries := [⟨0, long, ⟨0, 0⟩⟩, ⟨0, [7], ⟨1, 0⟩⟩] }
  have calm : (q.failing {}).disk.Calm := ⟨intact.coherent.whole, isOpen, rfl, rfl⟩
  have flushed : (s.flush {}).flushed = true := by
    obtain ⟨r, answered, -⟩ := Pool.flush_calm calm
    rw [Session.flush, Pool.Usage.flush, answered]
  have early : Relation.ReflTransGen (Step 2) (start .inMemory {}) s := .tail (.single here) there
  have late : Relation.ReflTransGen (Step 2) s (s.flush {}).drop :=
    .tail (.single (.flush {})) (.drop flushed)
  obtain ⟨-, -, apart, kept, -, -, held⟩ := paths_of_run empty {} early late
  have entered : Entry.mk 0 [7] ⟨1, 0⟩ ∈ (s.flush {}).drop.entries := by simp [s, flush, drop]
  exact ⟨s, _, long, early, late, rfl, rfl, kept 0 1 linked, (held _ entered).1,
    fun id other => apart id other 1⟩

end Session

end Gazetteer.Chain
