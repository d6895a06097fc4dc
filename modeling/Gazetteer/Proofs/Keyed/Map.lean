import Gazetteer.Keyed
import Gazetteer.Proofs.Chain.Intact
import Mathlib.Data.List.Dedup
import Mathlib.Data.List.Perm.Basic

/-! Keyed records are a map, whatever a run does: puts that answer and puts that fail, reads,
flushes and dropped pages, with disk calls that fail in the middle of any of them. The index leads
every key to a slot that holds its youngest value. Slots are never used again, and pages that
several chains share only grow, so that stays true of a key until it is put anew. -/
namespace Gazetteer.Keyed

/-- The value of a key, the youngest puts being first. -/
def youngest (stored : List (List UInt8 × List UInt8)) (key : List UInt8) : Option (List UInt8) :=
  stored.lookup key

/-- Keyed records in use. `stored` has the puts that answered, the youngest first. -/
structure Session extends Pool.Usage where
  keyed : Keyed
  stored : List (List UInt8 × List UInt8) := []

namespace Session

def start (settings : KeyedSettings) (accepted : settings.fault? = none) (disk : Disk)
    (buffer : BufferSettings) : Session :=
  { keyed := { settings, accepted }, pool := .over disk buffer }

/-- The keys of the puts that answered, each once. -/
def keys (s : Session) : List (List UInt8) := (s.stored.map Prod.fst).dedup

def put (s : Session) (plan : FaultPlan) (key value : List UInt8) : Session :=
  match s.keyed.put key value (s.pool.failing plan) with
  | (.ok (_, keyed), pool) => { keyed, pool, stored := (key, value) :: s.stored }
  | (.error _, pool) => { s with toUsage := { pool } }

def get (s : Session) (plan : FaultPlan) (key : List UInt8) : Session :=
  { s with toUsage := { pool := (s.keyed.get key (s.pool.failing plan)).2 } }

def values (s : Session) (plan : FaultPlan) : Session :=
  { s with toUsage := { pool := (s.keyed.values (s.pool.failing plan)).2 } }

def flush (s : Session) (plan : FaultPlan) : Session :=
  { s with toUsage := s.toUsage.flush plan }

def drop (s : Session) : Session := { s with toUsage := s.toUsage.drop }

/-- One call, in which the disk fails as planned. Pages are dropped only behind a flush that
answered. -/
inductive Step (s : Session) : Session → Prop where
  | put (plan : FaultPlan) (key value : List UInt8) : Step s (s.put plan key value)
  | get (plan : FaultPlan) (key : List UInt8) : Step s (s.get plan key)
  | values (plan : FaultPlan) : Step s (s.values plan)
  | flush (plan : FaultPlan) : Step s (s.flush plan)
  | drop (flushed : s.flushed = true) : Step s s.drop

/-- The index leads each key of a put that answered to its youngest value, and knows no others. -/
structure Valid (s : Session) : Prop extends s.toUsage.Sound where
  known : ∀ (key : List UInt8) (place : RecordId), s.keyed.locate key = some place →
    ∃ value, youngest s.stored key = some value ∧
      (s.pool.view place.page).record? place.slot = some value
  unknown : ∀ key : List UInt8, s.keyed.locate key = none → youngest s.stored key = none

end Session

variable {p q : Pool}

theorem recordAt_reads (place : RecordId) : PoolM.Reads (recordAt place) :=
  .bind (.fetch place.page) fun page => .pure (page.block.record? place.slot)

theorem recordAt_ok {place : RecordId} {answer : Option (List UInt8)}
    (h : recordAt place p = (.ok answer, q)) :
    answer = (p.view place.page).record? place.slot := by
  obtain ⟨page, r, fetched, found⟩ := PoolM.bind_ok h
  obtain ⟨-, block⟩ := (Pool.fetch_spec fetched).2 page rfl
  obtain ⟨same, -⟩ := PoolM.pure_ok found
  rw [← same, block]

theorem recordsAt_reads (places : List RecordId) : PoolM.Reads (recordsAt places) := by
  induction places with
  | nil => exact .pure []
  | cons place places ih =>
    exact .bind (recordAt_reads place) fun found => .bind ih fun rest => .pure _

theorem recordsAt_ok {places : List RecordId} {values : List (List UInt8)}
    (h : recordsAt places p = (.ok values, q)) :
    values = places.filterMap fun place => (p.view place.page).record? place.slot := by
  induction places generalizing p values with
  | nil =>
    cases h
    rfl
  | cons place places ih =>
    obtain ⟨first, r, found, rest⟩ := PoolM.bind_ok h
    obtain ⟨others, t, later, joined⟩ := PoolM.bind_ok rest
    obtain ⟨same, rfl⟩ := PoolM.pure_ok joined
    have here := recordAt_ok found
    have there := ih later
    rw [(recordAt_reads place p _ r found).view_eq] at there
    rw [← same, there, List.filterMap_cons, ← here]
    cases first <;> rfl

theorem youngest_cons (stored : List (List UInt8 × List UInt8)) (key value other : List UInt8) :
    youngest ((key, value) :: stored) other =
      if key = other then some value else youngest stored other := by
  unfold youngest
  by_cases same : key = other
  · rw [if_pos same, same, List.lookup_cons_self]
  · have apart : (other == key) = false := by simpa using Ne.symm same
    rw [if_neg same, List.lookup_cons, apart]

theorem locate_insert (k : Keyed) (key : List UInt8) (place : RecordId) (other : List UInt8) :
    locate { k with index := k.index.insert key place } other =
      if key = other then some place else k.locate other := by
  simp only [locate, Std.ExtTreeMap.getElem?_insert, Std.compare_eq_iff_eq]

theorem get_reads (k : Keyed) (key : List UInt8) : PoolM.Reads (k.get key) := by
  unfold get
  split
  · exact .pure none
  · exact recordAt_reads _

theorem get_ok {k : Keyed} {key : List UInt8} {answer : Option (List UInt8)}
    (h : k.get key p = (.ok answer, q)) :
    answer = (k.locate key).bind fun place => (p.view place.page).record? place.slot := by
  cases located : k.locate key with
  | none =>
    rw [get, located] at h
    cases h
    rfl
  | some place =>
    rw [get, located] at h
    exact recordAt_ok h

theorem recordAt_answers (readable : p.Readable) (place : RecordId) :
    ∃ q, recordAt place p = (.ok ((p.view place.page).record? place.slot), q) := by
  obtain ⟨page, q, fetched⟩ := Pool.fetch_answers readable place.page
  refine ⟨q, (PoolM.bind_of_ok fetched).trans ?_⟩
  rw [← ((Pool.fetch_spec fetched).2 page rfl).2]
  rfl

theorem get_answers (readable : p.Readable) (k : Keyed) (key : List UInt8) :
    ∃ q, k.get key p = (.ok ((k.locate key).bind fun place =>
      (p.view place.page).record? place.slot), q) := by
  unfold get
  cases k.locate key with
  | none => exact ⟨p, rfl⟩
  | some place => exact recordAt_answers readable place

theorem put_of_append {k : Keyed} {key value : List UInt8} {place : RecordId}
    (appended : Chain.append (k.home key) value k.maxPages p = (.ok place, q)) :
    k.put key value p = (.ok (place, { k with index := k.index.insert key place }), q) :=
  PoolM.bind_of_ok appended

namespace Session

variable {s t : Session}

theorem valid_start {settings : KeyedSettings} (accepted : settings.fault? = none) {disk : Disk}
    (empty : disk.medium.IsEmpty) (buffer : BufferSettings) :
    (start settings accepted disk buffer).Valid where
  toSound := .of_intact (Pool.intact_over empty buffer)
  known := by
    intro key place located
    simp [start, locate] at located
  unknown := fun _ _ => rfl

theorem Valid.of_view_eq {u : Pool.Usage} (h : s.Valid) (sound : u.Sound)
    (same : u.pool.view = s.pool.view) : Valid { s with toUsage := u } := by
  refine ⟨sound, ?_, h.unknown⟩
  intro key place located
  rw [same]
  exact h.known key place located

theorem Valid.of_loads {plan : FaultPlan} {pool : Pool} (h : s.Valid)
    (loaded : Pool.Loads (s.pool.failing plan) pool) : Valid { s with toUsage := { pool } } :=
  h.of_view_eq (.of_intact ((h.intact.failing plan).of_loads loaded)) loaded.view_eq

theorem Valid.put (h : s.Valid) (plan : FaultPlan) (key value : List UInt8) :
    (s.put plan key value).Valid := by
  have intact := h.intact.failing plan
  unfold Session.put
  split
  · next _ keyed pool call =>
    obtain ⟨made, r, appended, indexed⟩ := PoolM.bind_ok call
    cases indexed
    obtain ⟨after, appends⟩ := Chain.append_intact intact appended
    refine ⟨.of_intact after, ?_, ?_⟩
    · intro other place located
      rw [locate_insert] at located
      split at located
      · next same =>
        cases located
        exact ⟨value, by rw [youngest_cons, if_pos same], appends.record?_place⟩
      · next apart =>
        obtain ⟨found, youngest, held⟩ := h.known other place located
        refine ⟨found, ?_, appends.record?_of_some intact.sound held⟩
        rw [youngest_cons, if_neg apart]
        exact youngest
    · intro other located
      rw [locate_insert] at located
      split at located
      · cases located
      · next apart =>
        rw [youngest_cons, if_neg apart]
        exact h.unknown other located
  · next fault pool call =>
    rcases PoolM.bind_error call with failed | ⟨place, r, appended, indexed⟩
    · obtain ⟨after, same⟩ := Chain.append_failed intact failed
      exact h.of_view_eq (.of_intact after) same
    · exact (PoolM.pure_error indexed).elim

theorem put_of_ok {plan : FaultPlan} {key value : List UInt8} {place : RecordId} {keyed : Keyed}
    (answered : s.keyed.put key value (s.pool.failing plan) = (.ok (place, keyed), p)) :
    s.put plan key value = { keyed, pool := p, stored := (key, value) :: s.stored } := by
  rw [Session.put, answered]

theorem Valid.step (h : s.Valid) (step : Step s t) : t.Valid := by
  cases step with
  | put plan key value => exact h.put plan key value
  | get plan key => exact h.of_loads (get_reads s.keyed key _ _ _ rfl)
  | values plan => exact h.of_loads (recordsAt_reads _ _ _ _ rfl)
  | flush plan => exact h.of_view_eq (h.toSound.flush plan).1 (h.toSound.flush plan).2
  | drop flushed => exact h.of_view_eq (h.toSound.drop flushed).1 (h.toSound.drop flushed).2

theorem Valid.run (h : s.Valid) (run : Relation.ReflTransGen Step s t) : t.Valid := by
  induction run with
  | refl => exact h
  | tail _ step ih => exact ih.step step

theorem step_put {n : Nat} (roomy : Chain.Roomy s.pool n) (key : List UInt8) {value : List UInt8}
    (room : n + Block.weight value ≤ pageSize - Block.headerSize) :
    ∃ t, Step s t ∧ t.stored = (key, value) :: s.stored ∧
      Chain.Roomy t.pool (n + Block.weight value) := by
  obtain ⟨slot, q, appended, after, -⟩ := roomy.append room (s.keyed.home key) s.keyed.maxPages
  have step : Step s _ := .put {} key value
  rw [put_of_ok (put_of_append appended)] at step
  exact ⟨_, step, rfl, after⟩

/-- Puts that one page has room for all answer, wherever their keys belong. -/
theorem run_of_puts {n : Nat} (roomy : Chain.Roomy s.pool n)
    (puts : List (List UInt8 × List UInt8))
    (room : n + Block.weights (puts.map Prod.snd) ≤ pageSize - Block.headerSize) :
    ∃ t, Relation.ReflTransGen Step s t ∧ t.stored = puts.reverse ++ s.stored ∧
      t.pool.disk.isOpen = true := by
  induction puts generalizing s n with
  | nil => exact ⟨s, .refl, rfl, roomy.isOpen⟩
  | cons put puts ih =>
    rw [List.map_cons, Block.weights_cons, ← Nat.add_assoc] at room
    obtain ⟨t, step, first, after⟩ := step_put roomy put.1 (Nat.le_of_add_right_le room)
    obtain ⟨u, run, stored, isOpen⟩ := ih after room
    exact ⟨u, .head step run, by simp [stored, first], isOpen⟩

theorem Valid.found (h : s.Valid) (key : List UInt8) :
    ((s.keyed.locate key).bind fun place => (s.pool.view place.page).record? place.slot) =
      youngest s.stored key := by
  cases located : s.keyed.locate key with
  | none => exact (h.unknown key located).symm
  | some place =>
    obtain ⟨value, youngest, held⟩ := h.known key place located
    rw [youngest]
    exact held

theorem Valid.keys_perm (h : s.Valid) : s.keyed.index.keys.Perm s.keys := by
  refine (List.perm_ext_iff_of_nodup Std.ExtTreeMap.nodup_keys (List.nodup_dedup _)).mpr ?_
  intro key
  rw [Std.ExtTreeMap.mem_keys, List.mem_dedup, Std.ExtTreeMap.mem_iff_isSome_getElem?]
  change (s.keyed.locate key).isSome = true ↔ _
  cases located : s.keyed.locate key with
  | none =>
    have absent := List.lookup_eq_none_iff.mp (h.unknown key located)
    constructor
    · intro impossible
      cases impossible
    · intro member
      obtain ⟨entry, stored, same⟩ := List.mem_map.mp member
      have apart := absent entry stored
      simp [same] at apart
  | some place =>
    obtain ⟨value, youngest, -⟩ := h.known key place located
    obtain ⟨before, after, stored, -⟩ := List.lookup_eq_some_iff.mp youngest
    rw [stored]
    simp

theorem Valid.values_eq {plan : FaultPlan} {values : List (List UInt8)} (h : s.Valid)
    (answered : s.keyed.values (s.pool.failing plan) = (.ok values, p)) :
    values.map some = s.keyed.index.keys.map (youngest s.stored) := by
  have found := recordsAt_ok answered
  have there : ∀ entry ∈ s.keyed.index.toList, ∃ value, youngest s.stored entry.1 = some value ∧
      (s.pool.view entry.2.page).record? entry.2.slot = some value := by
    rintro ⟨key, place⟩ member
    exact h.known key place (Std.ExtTreeMap.mem_toList_iff_getElem?_eq_some.mp member)
  have same : s.keyed.index.toList.map
      (fun entry => (s.pool.view entry.2.page).record? entry.2.slot) =
      s.keyed.index.toList.map fun entry => youngest s.stored entry.1 := by
    apply List.map_congr_left
    intro entry member
    obtain ⟨value, youngest, held⟩ := there entry member
    rw [held, youngest]
  rw [found, List.map_filterMap_some_eq_filter_map_isSome, List.map_map,
    ← Std.ExtTreeMap.map_fst_toList_eq_keys, List.map_map]
  refine (congrArg _ same).trans (List.filter_eq_self.mpr ?_)
  intro answer member
  obtain ⟨entry, listed, rfl⟩ := List.mem_map.mp member
  obtain ⟨value, youngest, -⟩ := there entry listed
  rw [youngest]
  rfl

/-- A read that answers gives the value of the youngest put of its key that answered, and the values
of all keys are these. -/
theorem answers_youngest_of_run {settings : KeyedSettings} (accepted : settings.fault? = none)
    {disk : Disk} (empty : disk.medium.IsEmpty) (buffer : BufferSettings)
    (run : Relation.ReflTransGen Step (start settings accepted disk buffer) s)
    (plan : FaultPlan) :
    (∀ key answer q, s.keyed.get key (s.pool.failing plan) = (.ok answer, q) →
      answer = youngest s.stored key) ∧
    (∀ values q, s.keyed.values (s.pool.failing plan) = (.ok values, q) →
      (values.map some).Perm (s.keys.map (youngest s.stored))) ∧
    s.keyed.size = s.keys.length := by
  have valid := (valid_start accepted empty buffer).run run
  refine ⟨?_, ?_, ?_⟩
  · intro key answer q h
    rw [get_ok h]
    exact valid.found key
  · intro values q h
    rw [valid.values_eq h]
    exact valid.keys_perm.map _
  · rw [size, ← Std.ExtTreeMap.length_keys]
    exact valid.keys_perm.length_eq

/-- Two keys on three pages, one of them put twice. -/
theorem get_behind_puts : ∃ s,
    Relation.ReflTransGen Step (start ⟨3⟩ (by decide) .inMemory {}) s ∧
    s.stored = [([1], [5]), ([2], [9]), ([1], [7, 8])] ∧
    (s.keyed.get [1] (s.pool.failing {})).1 = .ok (some [5]) ∧
    (s.keyed.get [2] (s.pool.failing {})).1 = .ok (some [9]) ∧
    (s.keyed.get [3] (s.pool.failing {})).1 = .ok none ∧ s.keyed.size = 2 := by
  have accepted : (⟨3⟩ : KeyedSettings).fault? = none := by decide
  have empty : Disk.inMemory.medium.IsEmpty := rfl
  obtain ⟨s, run, stored, isOpen⟩ := run_of_puts (s := start ⟨3⟩ accepted .inMemory {})
    (Chain.roomy_over empty rfl {}) [([1], [7, 8]), ([2], [9]), ([1], [5])] (by decide)
  obtain ⟨reads, -, size⟩ := answers_youngest_of_run accepted empty {} run {}
  have readable : (s.pool.failing {}).Readable := ⟨isOpen, rfl⟩
  have read : ∀ key, (s.keyed.get key (s.pool.failing {})).1 = .ok (youngest s.stored key) := by
    intro key
    obtain ⟨q, answered⟩ := get_answers readable s.keyed key
    rw [← reads key _ q answered, answered]
  rw [keys, stored] at size
  rw [stored] at read
  exact ⟨s, run, stored, read [1], read [2], read [3], size⟩

end Session

end Gazetteer.Keyed
