import Gazetteer.Proofs.Chain.Agreement
import Gazetteer.Proofs.Keyed.Map
import Gazetteer.Proofs.Spatial.Search
import Mathlib.Logic.Function.Basic

/-! Records that share one pool, as their users see them: calls, one after the other, and what they
answer. Several stores of keyed records, told apart by numbers, and records at coordinates lie on
the same pages, and pages can be changed one by one as well. On pools that work on pages cannot tell
apart, every call has the same answer. -/
namespace Gazetteer

namespace Pool

/-- A record put on one page, if the page has room as it is. -/
def writeRecord (id : Nat) (value : List UInt8) : PoolM (Option Nat) := do
  let page ← fetch id
  match page.append? value with
  | none => return none
  | some (slot, changed) =>
    modify (·.keep id changed)
    return some slot

def setLink (id : Nat) (target : Option Nat) : PoolM Unit := do
  let page ← fetch id
  let linked ← page.setLink target
  modify (·.keep id linked)

end Pool

namespace Shared

/-- Work on pages. Only keyed records have a state of their own; what else a task needs comes with
it. -/
inductive Task where
  | put (store : Nat) (key value : List UInt8)
  | get (store : Nat) (key : List UInt8)
  | values (store : Nat)
  | putAt (placement : Placement) (place : Coordinate) (value : List UInt8)
  | search (placement : Placement) (place : Coordinate) (radiusKm : Float)
  | collect (visited : PageSet) (start : Nat)
  | pageIds (home : Nat)
  | firstFree (maxPages : Nat)
  | fetch (id : Nat)
  | putPage (page : Page)
  | format (id : Nat)
  | write (id : Nat) (value : List UInt8)
  | setLink (id : Nat) (target : Option Nat)

inductive Answer where
  | none
  | place (kept : RecordId)
  | value (found : Option (List UInt8))
  | values (found : List (List UInt8))
  | search (found : Spatial.Answer)
  | harvest (found : Chain.Harvest)
  | pages (ids : List Nat)
  | page (id : Nat)
  | block (block : Block)
  | slot (given : Option Nat)
  | count (n : Nat)

/-- The task done, with its answer and the keyed records behind it. -/
def Task.run (keyed : Nat → Keyed) : Task → PoolM (Answer × (Nat → Keyed))
  | .put store key value => do
    let (place, records) ← (keyed store).put key value
    return (.place place, Function.update keyed store records)
  | .get store key => return (.value (← (keyed store).get key), keyed)
  | .values store => return (.values (← (keyed store).values), keyed)
  | .putAt placement place value => return (.place (← Spatial.put placement place value), keyed)
  | .search placement place radiusKm =>
    return (.search (← Spatial.search placement place radiusKm), keyed)
  | .collect visited start => return (.harvest (← Chain.gather visited start), keyed)
  | .pageIds home => return (.pages (← Chain.pageIds home), keyed)
  | .firstFree maxPages => return (.page (← Chain.firstFree maxPages), keyed)
  | .fetch id => return (.block (← Pool.fetch id).block, keyed)
  | .putPage page => do
    Pool.putPage page
    return (.none, keyed)
  | .format id => do
    Pool.format id
    return (.none, keyed)
  | .write id value => return (.slot (← Pool.writeRecord id value), keyed)
  | .setLink id target => do
    Pool.setLink id target
    return (.none, keyed)

def Task.isQuery : Task → Bool
  | .get .. | .values .. | .search .. | .collect .. => true
  | .pageIds .. | .firstFree .. | .fetch .. => true
  | _ => false

inductive Call where
  | work (task : Task)
  | flush
  | drop

/-- Records in use, and whether the last call was a flush that answered. -/
structure Session extends Pool.Usage where
  keyed : Nat → Keyed

namespace Session

def start (disk : Disk) (buffer : BufferSettings) (keyed : Nat → Keyed) : Session :=
  { pool := .over disk buffer, keyed }

/-- One call, in which the disk fails as planned. -/
def call (s : Session) (plan : FaultPlan) : Call → Except Fault Answer × Session
  | .work task =>
    match task.run s.keyed (s.pool.failing plan) with
    | (.ok (answer, keyed), pool) => (.ok answer, { pool, keyed })
    | (.error fault, pool) => (.error fault, { pool, keyed := s.keyed })
  | .flush =>
    ((Pool.flush (s.pool.failing plan)).1.map .count, { s with toUsage := s.toUsage.flush plan })
  | .drop => (.ok .none, { s with toUsage := s.toUsage.drop })

/-- Pages are dropped only behind a flush that answered. -/
def Allows (s : Session) : Call → Prop
  | .drop => s.flushed = true
  | _ => True

end Session

end Shared

open PoolM (Agree)

variable {calm : Prop} {S : Pool → Pool → Prop} (sim : Pool.Simulation calm S)

theorem Page.Alike.append? {id : Nat} {a b : Page} (h : Alike id a b) (value : List UInt8) :
    a.append? value = b.append? value := by
  simp only [Page.append?, h.left, h.right, h.block]

theorem Page.append?_some {page changed : Page} {value : List UInt8} {slot : Nat}
    (h : page.append? value = some (slot, changed)) :
    changed.id = page.id ∧ changed.dirty = true := by
  obtain ⟨⟨given, block⟩, -, same⟩ := Option.map_eq_some_iff.mp h
  cases same
  exact ⟨rfl, rfl⟩

include sim

namespace Pool

theorem putPage_agree (page : Page) : Agree calm S Eq (putPage page) (putPage page) :=
  fun _ _ alike => .answered rfl (sim.count (sim.keep page.markDirty rfl alike))

theorem writeRecord_agree (id : Nat) (value : List UInt8) :
    Agree calm S Eq (writeRecord id value) (writeRecord id value) := by
  refine .bind (sim.fetch id) fun a b same => ?_
  rw [same.append? value]
  cases appended : b.append? value with
  | none => exact .pure rfl
  | some given =>
    obtain ⟨own, dirty⟩ := Page.append?_some appended
    rw [same.right] at own
    refine .bind (.modify fun p q alike => ?_) fun _ _ _ => .pure rfl
    exact own ▸ sim.keep given.2 dirty alike

theorem setLink_agree (id : Nat) (target : Option Nat) :
    Agree calm S Eq (setLink id target) (setLink id target) := by
  refine .bind (sim.fetch id) fun a b same => ?_
  rw [same.setLink target]
  refine .bind (.except _) fun linked _ set => ?_
  obtain ⟨rfl, set⟩ := set
  obtain ⟨own, dirty⟩ := Page.setLink_ok set
  rw [same.right] at own
  exact .mono (.modify fun p q alike => own ▸ sim.keep linked dirty alike) fun _ _ _ => rfl

end Pool

namespace Keyed

theorem recordAt_agree (place : RecordId) : Agree calm S Eq (recordAt place) (recordAt place) := by
  refine .bind (sim.fetch place.page) fun a b same => .pure ?_
  rw [same.block]

theorem get_agree (k : Keyed) (key : List UInt8) : Agree calm S Eq (k.get key) (k.get key) := by
  unfold get
  split
  · exact .pure rfl
  · exact recordAt_agree sim _

theorem recordsAt_agree (places : List RecordId) :
    Agree calm S Eq (recordsAt places) (recordsAt places) := by
  induction places with
  | nil => exact .pure rfl
  | cons place places ih =>
    refine .bind (recordAt_agree sim place) fun found _ same => ?_
    cases same
    refine .bind ih fun rest _ same => ?_
    cases same
    exact .pure rfl

theorem put_agree (k : Keyed) (key value : List UInt8) :
    Agree calm S Eq (k.put key value) (k.put key value) := by
  refine .bind (Chain.append_agree sim (k.home key) value k.maxPages) fun place _ same => ?_
  cases same
  exact .pure rfl

end Keyed

theorem Spatial.search_agree (placement : Placement) (place : Coordinate) (radiusKm : Float) :
    Agree calm S Eq (search placement place radiusKm) (search placement place radiusKm) := by
  refine .bind (.except _) fun candidates _ same => ?_
  obtain ⟨rfl, -⟩ := same
  refine .bind (Chain.collectAll_agree sim ∅ candidates) fun gathered _ same => ?_
  cases same
  exact .bind (.modify fun p q alike => sim.note _ alike) fun _ _ _ => .pure rfl

namespace Shared

theorem Task.run_agree (keyed : Nat → Keyed) (task : Task) :
    Agree calm S Eq (task.run keyed) (task.run keyed) := by
  have answers : ∀ {α : Type} {x : PoolM α} (f : α → Answer × (Nat → Keyed)),
      Agree calm S Eq x x →
        Agree calm S Eq (x >>= fun a => pure (f a)) (x >>= fun a => pure (f a)) := by
    intro α x f agree
    refine .bind agree fun a _ same => .pure ?_
    rw [same]
  cases task with
  | put store key value => exact answers _ (Keyed.put_agree sim _ key value)
  | get store key => exact answers _ (Keyed.get_agree sim _ key)
  | values store => exact answers _ (Keyed.recordsAt_agree sim _)
  | putAt placement place value => exact answers _ (Chain.append_agree sim _ value _)
  | search placement place radiusKm =>
    exact answers _ (Spatial.search_agree sim placement place radiusKm)
  | collect visited start => exact answers _ (Chain.gather_agree sim visited start)
  | pageIds home => exact answers _ (Chain.pageIdsFrom_agree sim ∅ home)
  | firstFree maxPages => exact answers _ (Chain.firstFreeFrom_agree sim maxPages 0 maxPages)
  | fetch id =>
    refine .bind (sim.fetch id) fun a b same => .pure ?_
    rw [same.block]
  | putPage page => exact answers _ (Pool.putPage_agree sim page)
  | format id => exact answers _ (.mono (Chain.format_agree sim id) fun _ _ _ => rfl)
  | write id value => exact answers _ (Pool.writeRecord_agree sim id value)
  | setLink id target => exact answers _ (Pool.setLink_agree sim id target)

omit sim

theorem Task.run_reads {task : Task} (query : task.isQuery = true) (keyed : Nat → Keyed) :
    PoolM.Reads (task.run keyed) := by
  cases task with
  | get store key => exact .bind (Keyed.get_reads _ key) fun _ => .pure _
  | values store => exact .bind (Keyed.recordsAt_reads _) fun _ => .pure _
  | search placement place radiusKm =>
    exact .bind (Spatial.search_reads placement place radiusKm) fun _ => .pure _
  | collect visited start => exact .bind (Chain.gather_reads visited start) fun _ => .pure _
  | pageIds home => exact .bind (Chain.pageIdsFrom_reads ∅ home) fun _ => .pure _
  | firstFree maxPages =>
    exact .bind (Chain.firstFreeFrom_reads maxPages 0 maxPages) fun _ => .pure _
  | fetch id => exact .bind (.fetch id) fun _ => .pure _
  | put | putAt | putPage | format | write | setLink => cases query

theorem Task.run_keyed {task : Task} (query : task.isQuery = true) {keyed after : Nat → Keyed}
    {answer : Answer} {p q : Pool} (h : task.run keyed p = (.ok (answer, after), q)) :
    after = keyed := by
  cases task with
  | put | putAt | putPage | format | write | setLink => cases query
  | _ =>
    obtain ⟨found, r, -, answered⟩ := PoolM.bind_ok h
    cases answered
    rfl

namespace Session

variable {s : Session}

/-- The keyed records behind a task: as it left them, if it answered. -/
def settled (keyed : Nat → Keyed) : Except Fault (Answer × (Nat → Keyed)) → Nat → Keyed
  | .ok (_, changed) => changed
  | .error _ => keyed

theorem call_work {plan : FaultPlan} {task : Task} {pool : Pool}
    {answer : Except Fault (Answer × (Nat → Keyed))}
    (h : task.run s.keyed (s.pool.failing plan) = (answer, pool)) :
    s.call plan (.work task) =
      (answer.map Prod.fst, { pool, keyed := settled s.keyed answer }) := by
  simp only [call, h]
  cases answer with
  | ok done => rfl
  | error fault => rfl

theorem call_flush {plan : FaultPlan} {pool : Pool} {answer : Except Fault Nat}
    (h : Pool.flush (s.pool.failing plan) = (answer, pool)) :
    s.call plan .flush =
      (answer.map .count, { pool, flushed := answer.isOk, keyed := s.keyed }) := by
  simp only [call, Pool.Usage.flush, h]
  cases answer with
  | ok n => rfl
  | error fault => rfl

/-- The place that the index has for a key holds a value. -/
def Shows (s : Session) (store : Nat) (key value : List UInt8) : Prop :=
  ∃ place, (s.keyed store).locate key = some place ∧
    (s.pool.view place.page).record? place.slot = some value

theorem Shows.of_same {t : Session} {store : Nat} {key value : List UInt8}
    (h : s.Shows store key value) (view : t.pool.view = s.pool.view) (keyed : t.keyed = s.keyed) :
    t.Shows store key value := by
  rw [Shows, view, keyed]
  exact h

theorem Shows.of_appends {keyed : Nat → Keyed} {pool : Pool} {store home : Nat}
    {key value other : List UInt8} {place : RecordId} (h : s.Shows store key value)
    (sound : ∀ id, (s.pool.view id).Sound)
    (appends : Chain.Appends s.pool.view pool.view home other place)
    (same : (keyed store).locate key = (s.keyed store).locate key) :
    Shows { pool, keyed } store key value := by
  obtain ⟨spot, located, held⟩ := h
  exact ⟨spot, same.trans located, appends.record?_of_some sound held⟩

theorem Shows.get {store : Nat} {key value : List UInt8} (h : s.Shows store key value)
    (isOpen : s.pool.disk.isOpen = true) :
    ∃ q, (s.keyed store).get key (s.pool.failing {}) = (.ok (some value), q) := by
  obtain ⟨place, located, held⟩ := h
  obtain ⟨q, found⟩ := Keyed.get_answers (p := s.pool.failing {}) ⟨isOpen, rfl⟩ (s.keyed store) key
  rw [located, Option.bind_some, Pool.view_failing, held] at found
  exact ⟨q, found⟩

theorem call_put {n : Nat} (roomy : Chain.Roomy s.pool n) (store : Nat) (key value : List UInt8)
    (room : n + Block.weight value ≤ pageSize - Block.headerSize) :
    ∃ place t, s.call {} (.work (.put store key value)) = (.ok (.place place), t) ∧
      Chain.Roomy t.pool (n + Block.weight value) ∧ t.Shows store key value ∧
      ∀ other known, key ≠ other → s.Shows store other known → t.Shows store other known := by
  let k := s.keyed store
  obtain ⟨slot, q, appended, after, appends⟩ := roomy.append room (k.home key) k.maxPages
  let changed : Keyed := { k with index := k.index.insert key ⟨k.home key, slot⟩ }
  have done : (Task.put store key value).run s.keyed (s.pool.failing {}) =
      (.ok (.place ⟨k.home key, slot⟩, Function.update s.keyed store changed), q) :=
    PoolM.bind_of_ok (Keyed.put_of_append appended)
  refine ⟨_, _, call_work done, after, ⟨⟨k.home key, slot⟩, ?_, appends.record?_place⟩, ?_⟩
  · change (Function.update s.keyed store changed store).locate key = _
    rw [Function.update_self, Keyed.locate_insert, if_pos rfl]
  · intro other known apart shown
    apply shown.of_appends roomy.intact.sound appends
    change (Function.update s.keyed store changed store).locate other = _
    rw [Function.update_self, Keyed.locate_insert, if_neg apart]

theorem call_putAt {n : Nat} (roomy : Chain.Roomy s.pool n) (placement : Placement)
    (place : Coordinate) (value : List UInt8)
    (room : n + Block.weight value ≤ pageSize - Block.headerSize) :
    ∃ kept t, s.call {} (.work (.putAt placement place value)) = (.ok (.place kept), t) ∧
      Chain.Roomy t.pool (n + Block.weight value) ∧
      value ∈ (t.pool.view (placement.page place)).records ∧
      ∀ store key known, s.Shows store key known → t.Shows store key known := by
  obtain ⟨slot, q, appended, after, appends⟩ :=
    roomy.append room (placement.page place) placement.maxPages
  have done : (Task.putAt placement place value).run s.keyed (s.pool.failing {}) =
      (.ok (.place ⟨placement.page place, slot⟩, s.keyed), q) := PoolM.bind_of_ok appended
  refine ⟨_, _, call_work done, after, ?_, ?_⟩
  · rw [appends.records, if_pos rfl]
    exact List.mem_append_right _ (List.mem_singleton_self value)
  · intro store key known shown
    exact shown.of_appends roomy.intact.sound appends rfl

end Session

end Shared

end Gazetteer
