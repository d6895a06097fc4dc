import Gazetteer.Proofs.Keyed.Snapshot
import Gazetteer.Proofs.Pool.Twins
import Gazetteer.Proofs.Shared.Calls

/-! What a snapshot of an index promises. Records that share a pool put behind what is there and
change nothing else, so a place that was once given out holds its record from then on, through
flushes that stop midway and through dropped pages; and a pool that was closed is opened anew as it
was seen. -/
namespace Gazetteer

namespace Pool

theorem view_reopened {p q : Pool} (coherent : p.Coherent) (lasting : p.disk.medium.Lasting)
    (closed : close p = (.ok (), q)) (buffer : BufferSettings) :
    (Pool.over q.disk.reopened buffer).view = p.view ∧
      (Pool.over q.disk.reopened buffer).Coherent := by
  obtain ⟨written, r, flushed, -, medium, answered⟩ := close_flush closed
  obtain ⟨settled, clean⟩ := flush_settles coherent flushed
  obtain ⟨n, rfl⟩ := answered rfl
  have stored := view_of_clean settled.coherent (clean n rfl)
  have file : (Pool.over q.disk.reopened buffer).disk.medium = r.disk.medium := by
    change q.disk.medium.reopened = r.disk.medium
    rw [medium]
    exact (settled.lasting lasting).reopened
  refine ⟨?_, coherent_of_empty (file ▸ settled.coherent.whole) rfl⟩
  rw [view_of_empty rfl, file, ← settled.view_eq]
  funext id
  exact (stored id).symm

end Pool

theorem Spatial.search_same {p q : Pool} (left : p.Filed) (right : q.Filed) (view : q.view = p.view)
    (readable : q.Readable) {placement : Placement} {place : Coordinate} {radiusKm : Float}
    {answer : Answer} (answered : (search placement place radiusKm p).1 = .ok answer) :
    (search placement place radiusKm q).1 = .ok answer := by
  have first : search placement place radiusKm p =
      (.ok answer, (search placement place radiusKm p).2) := Prod.ext answered rfl
  obtain ⟨candidates, proposed, -⟩ := search_ok first
  obtain ⟨other, r, second⟩ := search_answers readable proposed
  have alike : Pool.Alike False p q := ⟨view.symm, left, right, False.elim⟩
  have agree := search_agree (Pool.simulation_alike False) placement place radiusKm
  obtain ⟨same, -⟩ := agree.of_ok alike first second
  rw [second, same]

namespace Shared.Session

open Bytes.Layout (Countable)
open Keyed (Kept Placed)

variable {s t : Session} {plan : FaultPlan}

/-- What the users of records do, while the disk fails as planned. The length of a key is a word of
the machine. Pages are dropped only behind a flush that answered. -/
inductive Step (s : Session) : Session → Prop where
  | put (plan : FaultPlan) (store : Nat) {key : List UInt8} (value : List UInt8)
      (short : Countable key.length) : Step s (s.call plan (.work (.put store key value))).2
  | putAt (plan : FaultPlan) (placement : Placement) (place : Coordinate) (value : List UInt8) :
      Step s (s.call plan (.work (.putAt placement place value))).2
  | query (plan : FaultPlan) {task : Task} (query : task.isQuery = true) :
      Step s (s.call plan (.work task)).2
  | flush (plan : FaultPlan) : Step s (s.call plan .flush).2
  | drop (flushed : s.flushed = true) : Step s (s.call {} .drop).2

/-- All places of all indexes hold records, on sound pages over an open page file. -/
structure Valid (s : Session) : Prop extends s.toUsage.Sound where
  lasting : s.pool.disk.medium.Lasting
  isOpen : s.pool.disk.isOpen = true
  placed : ∀ store, (s.keyed store).Placed s.pool.view

/-- A call keeps a session valid, and all records where they are. -/
structure Extends (s t : Session) : Prop where
  valid : t.Valid
  kept : Kept s.pool.view t.pool.view

theorem Extends.of_same (h : s.Valid) (sound : t.toUsage.Sound) (view : t.pool.view = s.pool.view)
    (keyed : t.keyed = s.keyed) (lasting : t.pool.disk.medium.Lasting)
    (isOpen : t.pool.disk.isOpen = true) : Extends s t where
  valid := ⟨sound, lasting, isOpen, by rw [keyed, view]; exact h.placed⟩
  kept := by
    rw [view]
    exact fun _ _ _ there => there

theorem Extends.of_loads (h : s.Valid) {pool : Pool}
    (loaded : Pool.Loads (s.pool.failing plan) pool) : Extends s { pool, keyed := s.keyed } :=
  .of_same h (.of_intact ((h.intact.failing plan).of_loads loaded)) loaded.view_eq rfl
    (loaded.medium ▸ h.lasting) (loaded.isOpen.trans h.isOpen)

theorem Extends.of_append (h : s.Valid) {home maxPages : Nat} {value : List UInt8}
    {place : RecordId} {q : Pool} {keyed : Nat → Keyed}
    (appended : Chain.append home value maxPages (s.pool.failing plan) = (.ok place, q))
    (placed : Kept s.pool.view q.view → ∀ store, (keyed store).Placed q.view) :
    Extends s { pool := q, keyed } := by
  have intact := h.intact.failing plan
  obtain ⟨after, appends⟩ := Chain.append_intact intact appended
  obtain ⟨-, -, growth, -, updated⟩ := Chain.append_ok intact.coherent.filed appended
  have kept : Kept s.pool.view q.view :=
    fun _ _ _ there => appends.record?_of_some intact.sound there
  exact ⟨⟨.of_intact after, updated.medium ▸ h.lasting, updated.isOpen.trans h.isOpen,
    placed kept⟩, kept⟩

theorem Extends.put (h : s.Valid) (store : Nat) {key : List UInt8} (value : List UInt8)
    (short : Countable key.length) :
    Extends s (s.call plan (.work (.put store key value))).2 := by
  cases done : (Task.put store key value).run s.keyed (s.pool.failing plan) with
  | mk answer q =>
    rw [call_work done]
    cases answer with
    | error fault =>
      rcases PoolM.bind_error done with failed | ⟨_, r, put, answered⟩
      · rcases PoolM.bind_error failed with failed | ⟨place, r, appended, indexed⟩
        · exact .of_loads h (Chain.append_error failed)
        · exact (PoolM.pure_error indexed).elim
      · exact (PoolM.pure_error answered).elim
    | ok changed =>
      obtain ⟨_, r, put, answered⟩ := PoolM.bind_ok done
      cases answered
      obtain ⟨place, r, appended, indexed⟩ := PoolM.bind_ok put
      cases indexed
      refine .of_append h appended fun kept other => ?_
      change (Function.update s.keyed store _ other).Placed _
      by_cases same : other = store
      · -- the place is new to this index, since the slot of a record was free before the append
        subst same
        have intact := h.intact.failing plan
        have appends := (Chain.append_intact intact appended).2
        obtain ⟨-, -, growth, room, -⟩ := Chain.append_ok intact.coherent.filed appended
        have home : (s.keyed other).home key < linkLimit :=
          Nat.lt_trans ((s.keyed other).home_lt key)
            ((pagesFault?_eq_none_iff _).mp (s.keyed other).accepted).2
        rw [Function.update_self]
        exact (h.placed other).insert kept short (room.place_lt home)
          (appends.record?_free intact.sound) appends.record?_place
      · rw [Function.update_of_ne same]
        exact (h.placed other).of_kept kept

theorem Extends.putAt (h : s.Valid) (placement : Placement) (place : Coordinate)
    (value : List UInt8) : Extends s (s.call plan (.work (.putAt placement place value))).2 := by
  cases done : (Task.putAt placement place value).run s.keyed (s.pool.failing plan) with
  | mk answer q =>
    rw [call_work done]
    cases answer with
    | error fault =>
      rcases PoolM.bind_error done with failed | ⟨_, r, put, answered⟩
      · exact .of_loads h (Chain.append_error failed)
      · exact (PoolM.pure_error answered).elim
    | ok changed =>
      obtain ⟨kept, r, appended, answered⟩ := PoolM.bind_ok done
      cases answered
      exact .of_append h appended fun kept store => (h.placed store).of_kept kept

theorem Extends.query (h : s.Valid) {task : Task} (query : task.isQuery = true) :
    Extends s (s.call plan (.work task)).2 := by
  cases done : task.run s.keyed (s.pool.failing plan) with
  | mk answer q =>
    have loaded := task.run_reads query s.keyed _ _ _ done
    have same : settled s.keyed answer = s.keyed := by
      cases answer with
      | error fault => rfl
      | ok answered => exact Task.run_keyed query done
    rw [call_work done, same]
    exact .of_loads h loaded

theorem Extends.flush (h : s.Valid) : Extends s (s.call plan .flush).2 := by
  obtain ⟨sound, view⟩ := h.toSound.flush plan
  cases flushed : Pool.flush (s.pool.failing plan) with
  | mk answer q =>
    obtain ⟨settled, -⟩ := Pool.flush_settles (h.intact.failing plan).coherent flushed
    have called := congrArg Prod.snd (call_flush flushed)
    have usage : s.toUsage.flush plan = { pool := q, flushed := answer.isOk } :=
      congrArg Session.toUsage called
    rw [called]
    rw [usage] at sound view
    exact .of_same h sound view rfl (settled.lasting h.lasting) (settled.isOpen.trans h.isOpen)

theorem Step.extended (h : s.Valid) (step : Step s t) : Extends s t := by
  cases step with
  | put plan store value short => exact .put h store value short
  | putAt plan placement place value => exact .putAt h placement place value
  | query plan query => exact .query h query
  | flush plan => exact .flush h
  | drop flushed =>
    obtain ⟨sound, view⟩ := h.toSound.drop flushed
    exact .of_same h sound view rfl h.lasting h.isOpen

theorem Extends.run (h : s.Valid) (run : Relation.ReflTransGen Step s t) : Extends s t := by
  induction run with
  | refl => exact ⟨h, fun _ _ _ there => there⟩
  | tail _ step ih =>
    have later := step.extended ih.valid
    exact ⟨later.valid, fun id slot value there => later.kept _ _ _ (ih.kept _ _ _ there)⟩

theorem valid_start {disk : Disk} (opened : Disk.openFile (.file []) = .ok disk)
    (buffer : BufferSettings) {keyed : Nat → Keyed} (fresh : ∀ store, (keyed store).index = ∅) :
    (start disk buffer keyed).Valid := by
  cases opened
  have empty : Medium.IsEmpty (.file (.ofBytes [])) := rfl
  refine ⟨.of_intact (Pool.intact_over empty buffer), trivial, rfl, fun store => ?_⟩
  have nothing : ∀ (key : List UInt8) (place : RecordId),
      (keyed store).locate key = some place → False := by
    intro key place located
    rw [Keyed.locate, fresh store] at located
    simp at located
  exact ⟨fun key place there => (nothing key place there).elim,
    fun key place there => (nothing key place there).elim,
    fun key place there => (nothing key place there).elim,
    fun key _ place there => (nothing key place there).elim⟩

/-- From an empty page file, the index of a store is written at `s`, and other puts follow up to
`t`, of which `p` is left by queries. Then `p` is closed, the file is opened anew as it is, and `r`
is left of that by queries. The index read there brings back the values that the keys had at `s`,
and a search has the answer that it had at `t`. -/
theorem snapshot_of_run {disk : Disk} (opened : Disk.openFile (.file []) = .ok disk)
    (buffer : BufferSettings) {keyed : Nat → Keyed} (fresh : ∀ store, (keyed store).index = ∅)
    (before : Relation.ReflTransGen Step (start disk buffer keyed) s)
    (behind : Relation.ReflTransGen Step s t) {p q r : Pool}
    (asked : Pool.Loads (t.pool.failing plan) p) {closing reading : FaultPlan}
    (closed : Pool.close (p.failing closing) = (.ok (), q)) (settings : BufferSettings)
    (safe : reading.reads = [])
    (seen : Pool.Loads ((Pool.over q.disk.reopened settings).failing reading) r) :
    (∀ (store : Nat) (other : Keyed), ∃ restored x,
      other.restore (s.keyed store).snapshot r = (.ok restored, x) ∧
      ∀ y, Pool.Loads x y → ∀ key, ∃ answer,
        ((s.keyed store).get key (s.pool.failing {})).1 = .ok answer ∧
        (restored.get key y).1 = .ok answer) ∧
    ∀ (placement : Placement) (place : Coordinate) (radiusKm : Float) (answer : Spatial.Answer),
      (Spatial.search placement place radiusKm (t.pool.failing plan)).1 = .ok answer →
      (Spatial.search placement place radiusKm r).1 = .ok answer := by
  have first := Extends.run (valid_start opened buffer fresh) before
  have later := Extends.run first.valid behind
  have intact := (later.valid.intact.failing plan).of_loads asked |>.failing closing
  have lasting : (p.failing closing).disk.medium.Lasting := by
    change p.disk.medium.Lasting
    rw [asked.medium]
    exact later.valid.lasting
  obtain ⟨shown, coherent⟩ := Pool.view_reopened intact.coherent lasting closed settings
  have view : r.view = t.pool.view := seen.view_eq.trans (shown.trans asked.view_eq)
  have readable : r.Readable := seen.readable ⟨rfl, safe⟩
  have filed : r.Filed := seen.filed coherent.filed
  constructor
  · intro store other
    have placed := first.valid.placed store
    refine ⟨_, _, Keyed.restore_snapshot placed.storable other r, ?_⟩
    intro y further key
    have loaded : Pool.Loads r y := (Pool.note_updates (.refl r) _).trans_loads further
    refine placed.get_same (p := s.pool.failing {}) rfl rfl ?_ ⟨first.valid.isOpen, rfl⟩
      (loaded.readable readable) key
    rw [loaded.view_eq, view]
    exact later.kept
  · intro placement place radiusKm answer answered
    have left := (later.valid.intact.failing plan).coherent.filed
    exact Spatial.search_same left filed view readable answered

theorem step_of_put {store : Nat} {key value : List UInt8} {answer : Except Fault Answer}
    (short : Countable key.length)
    (called : s.call plan (.work (.put store key value)) = (answer, t)) : Step s t := by
  have step : Step s _ := .put plan store value short
  rwa [called] at step

/-- Two keys are put and the index is written; behind that the first is put anew and a record at
coordinates is put. The next start brings back the two values of the index, and that record is found. -/
theorem snapshot_behind_puts : ∃ (keyed : Nat → Keyed) (c : Curve) (s t : Session) (q x y : Pool)
    (restored : Keyed) (answer : Spatial.Answer),
    Relation.ReflTransGen Step (start { medium := .file (.ofBytes []) } {} keyed) s ∧
    Relation.ReflTransGen Step s t ∧
    ((t.keyed 0).get [1] (t.pool.failing {})).1 = .ok (some [7]) ∧
    Pool.close (t.pool.failing {}) = (.ok (), q) ∧
    (keyed 0).restore (s.keyed 0).snapshot ((Pool.over q.disk.reopened {}).failing {}) =
      (.ok restored, x) ∧
    (restored.get [1] x).1 = .ok (some [5]) ∧ (restored.get [2] x).1 = .ok (some [9]) ∧
    Spatial.search (.curve c) ⟨33.0, 126.0⟩ 1.0 ((Pool.over q.disk.reopened {}).failing {}) =
      (.ok answer, y) ∧ [8] ∈ answer.records := by
  let disk : Disk := { medium := .file (.ofBytes []) }
  let keyed : Nat → Keyed := fun _ => { settings := ⟨1⟩, accepted := by decide }
  let c : Curve := ⟨{ order := 1, maxPages := 2 }, by decide +kernel⟩
  have proposed : (Placement.curve c).pages ⟨33.0, 126.0⟩ 1.0 = .ok [0, 1] := by decide +kernel
  have home : (Placement.curve c).page ⟨33.0, 126.0⟩ = 0 := by decide +kernel
  have fresh : ∀ store, (keyed store).index = ∅ := fun _ => rfl
  have opened : Disk.openFile (.file []) = .ok disk := rfl
  have empty : disk.medium.IsEmpty := rfl
  have blank : Chain.Roomy (start disk {} keyed).pool 0 := Chain.roomy_over empty rfl {}
  obtain ⟨_, a, first, roomy, one, -⟩ := call_put blank 0 [1] [5] (by decide)
  obtain ⟨_, s, second, roomy, two, others⟩ := call_put roomy 0 [2] [9] (by decide)
  have one := others [1] [5] (by decide) one
  obtain ⟨_, b, third, roomy, anew, -⟩ := call_put roomy 0 [1] [7] (by decide)
  obtain ⟨_, t, fourth, roomy, held, others⟩ :=
    call_putAt roomy (.curve c) ⟨33.0, 126.0⟩ [8] (by decide)
  have last : Step b _ := .putAt {} (.curve c) ⟨33.0, 126.0⟩ [8]
  rw [fourth] at last
  have before : Relation.ReflTransGen Step (start disk {} keyed) s :=
    .tail (.single (step_of_put (by decide) first)) (step_of_put (by decide) second)
  have behind : Relation.ReflTransGen Step s t :=
    .tail (.single (step_of_put (by decide) third)) last
  have calm : (t.pool.failing {}).disk.Calm :=
    ⟨roomy.intact.coherent.whole, roomy.isOpen, rfl, rfl⟩
  obtain ⟨q, closed⟩ := Pool.close_calm calm rfl
  have safe : FaultPlan.reads {} = [] := rfl
  obtain ⟨served, searched⟩ := snapshot_of_run opened {} fresh before behind
    (.refl (t.pool.failing {})) closed {} safe (.refl _)
  obtain ⟨restored, x, back, reads⟩ := served 0 (keyed 0)
  have restored_value : ∀ key value, s.Shows 0 key value →
      (restored.get key x).1 = .ok (some value) := by
    intro key value shown
    obtain ⟨answer, known, same⟩ := reads x (.refl x) key
    obtain ⟨r, exported⟩ := shown.get (Extends.run (valid_start opened {} fresh) before).valid.isOpen
    rw [exported] at known
    cases known
    exact same
  obtain ⟨answer, r, found⟩ := Spatial.search_answers roomy.readable proposed
  have again := searched _ _ _ answer (congrArg Prod.fst found)
  have near : [8] ∈ answer.records := by
    rw [home] at held
    exact Spatial.mem_of_search found proposed (List.mem_cons_self) .refl held
  obtain ⟨r', overwritten⟩ := (others 0 [1] [7] anew).get roomy.isOpen
  exact ⟨keyed, c, s, t, q, x, _, restored, answer, before, behind,
    congrArg Prod.fst overwritten, closed, back, restored_value _ _ one, restored_value _ _ two,
    Prod.ext again rfl, near⟩

end Shared.Session

end Gazetteer
