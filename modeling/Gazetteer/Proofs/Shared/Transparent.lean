import Gazetteer.Proofs.Pool.Twins
import Gazetteer.Proofs.Shared.Calls

/-! The pool is transparent while no disk call fails: what a call answers, and what it leaves to be
seen, depends on what is seen before it, not on which pages are kept or changed; and a run has the
same answers over a memory and over a page file. -/
namespace Gazetteer

namespace Pool

variable {p q : Pool}

theorem Twins.failing (h : Twins p q) : Twins (p.failing {}) (q.failing {}) := by
  cases h with
  | @on p d e disks =>
    obtain ⟨⟨whole, isOpen, -, -⟩, ⟨whole', isOpen', -, -⟩, block⟩ := disks
    have left : Disk.Calm { d with plan := {} } := ⟨whole, isOpen, rfl, rfl⟩
    have right : Disk.Calm { e with plan := {} } := ⟨whole', isOpen', rfl, rfl⟩
    exact .on p ⟨left, right, block⟩

theorem Twins.calm (h : Twins p q) : p.disk.Calm := by
  cases h with
  | on p disks => exact disks.left

theorem Twins.same_pages (h : Twins p q) :
    q.cached = p.cached ∧ q.diskReads = p.diskReads ∧ q.journal = p.journal ∧
      ∀ id, q.disk.medium.block id = p.disk.medium.block id := by
  cases h with
  | on p disks => exact ⟨rfl, rfl, rfl, fun id => (disks.block id).symm⟩

theorem Loads.mem_dirtyPages (h : Loads p q) (page : Page) :
    page ∈ q.dirtyPages ↔ page ∈ p.dirtyPages := by
  simp only [Pool.mem_dirtyPages]
  constructor
  · rintro ⟨dirty, id, found⟩
    refine ⟨dirty, id, ?_⟩
    cases before : p.cached[id]? with
    | none =>
      rw [h.fresh id page rfl before found] at dirty
      cases dirty
    | some old => exact (h.kept id old rfl before).symm.trans found
  · rintro ⟨dirty, id, found⟩
    exact ⟨dirty, id, h.kept id page rfl found⟩

end Pool

namespace Shared

/-- Calls one after the other, while no disk call fails, and their answers. -/
inductive Run : Session → List Call → List (Except Fault Answer) → Session → Prop where
  | nil (s : Session) : Run s [] [] s
  | cons {s t : Session} {c : Call} {calls : List Call} {answers : List (Except Fault Answer)}
      (allowed : s.Allows c) (rest : Run (s.call {} c).2 calls answers t) :
      Run s (c :: calls) ((s.call {} c).1 :: answers) t

namespace Session

variable {s t : Session}

/-- No disk call fails, and the clean pages are copies of the medium. -/
structure Steady (s : Session) : Prop where
  coherent : s.pool.Coherent
  clean : s.flushed = true → s.pool.Clean
  calm : s.pool.disk.Calm

structure Twin (s t : Session) : Prop where
  pools : Pool.Twins s.pool t.pool
  keyed : t.keyed = s.keyed
  flushed : t.flushed = s.flushed

theorem Twin.call (h : s.Twin t) (filed : s.pool.Filed) (c : Call) :
    (t.call {} c).1 = (s.call {} c).1 ∧ (s.call {} c).2.Twin (t.call {} c).2 := by
  cases c with
  | work task =>
    cases left : task.run s.keyed (s.pool.failing {}) with
    | mk answer p =>
      cases right : task.run t.keyed (t.pool.failing {}) with
      | mk other q =>
        obtain ⟨same, after, -⟩ :=
          (task.run_agree Pool.simulation_twins s.keyed).of_calm ⟨h.pools.failing, filed⟩
        rw [← h.keyed, right, h.keyed, left] at same after
        cases same
        rw [call_work left, call_work right, h.keyed]
        exact ⟨rfl, after, rfl, rfl⟩
  | flush =>
    obtain ⟨same, after⟩ := Pool.flush_twins.of_calm h.pools.failing
    cases left : Pool.flush (s.pool.failing {}) with
    | mk answer p =>
      cases right : Pool.flush (t.pool.failing {}) with
      | mk other q =>
        rw [left, right] at same after
        cases same
        rw [call_flush left, call_flush right]
        exact ⟨rfl, after, h.keyed, rfl⟩
  | drop =>
    obtain ⟨-, after⟩ := Pool.dropAll_twins.of_calm h.pools
    exact ⟨rfl, after, h.keyed, rfl⟩

theorem Steady.twin (h : s.Steady) : s.Twin s :=
  ⟨.on s.pool ⟨h.calm, h.calm, fun _ => rfl⟩, rfl, rfl⟩

theorem Steady.call (h : s.Steady) {c : Call} (allowed : s.Allows c) : (s.call {} c).2.Steady := by
  have calm := (h.twin.call h.coherent.filed c).2.pools.calm
  have ready : (s.pool.failing {}).Coherent := h.coherent.of_same rfl rfl
  cases c with
  | work task =>
    -- a task run beside itself: what its fetches and updates leave true holds when it is done
    have copies := Pool.simulation_same (I := Pool.Coherent) (fun _ _ => Pool.Updates.coherent)
      (fun p page dirty coherent => by
        have kept := Pool.keep_updates p page.id page.block
        rw [← dirty] at kept
        exact kept.coherent coherent)
      (fun p q cached disk coherent => coherent.of_same cached (congrArg Disk.medium disk))
    cases done : task.run s.keyed (s.pool.failing {}) with
    | mk answer q =>
      obtain ⟨-, -, -, coherent⟩ :=
        (task.run_agree copies s.keyed).of_calm ⟨rfl, ready.filed, ready⟩
      rw [done] at coherent
      rw [call_work done] at calm ⊢
      exact ⟨coherent, fun impossible => (by cases impossible), calm⟩
  | flush =>
    cases flushed : Pool.flush (s.pool.failing {}) with
    | mk answer q =>
      obtain ⟨coherent, -, clean⟩ := Pool.flush_spec ready flushed
      rw [call_flush flushed] at calm ⊢
      refine ⟨coherent, fun answered => ?_, calm⟩
      cases answer with
      | ok n => exact clean n rfl
      | error fault => cases answered
  | drop =>
    obtain ⟨coherent, -⟩ := Pool.dropAll_clean h.coherent (h.clean allowed) rfl
    exact ⟨coherent, fun impossible => (by cases impossible), calm⟩

theorem Steady.run {calls : List Call} {answers : List (Except Fault Answer)} (h : s.Steady)
    (run : Run s calls answers t) : t.Steady := by
  induction run with
  | nil s => exact h
  | cons allowed rest ih => exact ih (h.call allowed)

theorem Twin.run {u : Session} {calls : List Call} {answers : List (Except Fault Answer)}
    (h : s.Twin t) (steady : s.Steady) (run : Run s calls answers u) :
    ∃ v, Run t calls answers v ∧ u.Twin v := by
  induction run generalizing t with
  | nil s => exact ⟨t, .nil t, h⟩
  | @cons s u c calls answers allowed rest ih =>
    obtain ⟨same, after⟩ := h.call steady.coherent.filed c
    obtain ⟨v, later, twin⟩ := ih after (steady.call allowed)
    have still : t.Allows c := by
      cases c with
      | work task => trivial
      | flush => trivial
      | drop => exact h.flushed.trans allowed
    exact ⟨v, same ▸ .cons still later, twin⟩

theorem steady_start {disk : Disk} (empty : disk.medium.IsEmpty) (calm : disk.Calm)
    (buffer : BufferSettings) (keyed : Nat → Keyed) : (start disk buffer keyed).Steady where
  coherent := Pool.coherent_over empty.whole buffer
  clean impossible := by cases impossible
  calm := calm

/-- The same can be seen of two sessions, whatever pages they keep. -/
structure SameView (s t : Session) : Prop where
  view_eq : t.pool.view = s.pool.view
  keyed : t.keyed = s.keyed

theorem SameView.symm (h : s.SameView t) : t.SameView s := ⟨h.view_eq.symm, h.keyed.symm⟩

theorem SameView.trans {u : Session} (h : s.SameView t) (k : t.SameView u) : s.SameView u :=
  ⟨k.view_eq.trans h.view_eq, k.keyed.trans h.keyed⟩

theorem Steady.call_idle (h : s.Steady) {c : Call} (allowed : s.Allows c)
    (idle : ∀ task, c ≠ .work task) : s.SameView (s.call {} c).2 := by
  cases c with
  | work task => exact (idle task rfl).elim
  | flush =>
    cases flushed : Pool.flush (s.pool.failing {}) with
    | mk answer q =>
      have ready : (s.pool.failing {}).Coherent := h.coherent.of_same rfl rfl
      rw [call_flush flushed]
      exact ⟨(Pool.flush_spec ready flushed).2.1, rfl⟩
  | drop => exact ⟨(Pool.dropAll_clean h.coherent (h.clean allowed) rfl).2, rfl⟩

theorem call_query {task : Task} (query : task.isQuery = true) :
    s.SameView (s.call {} (.work task)).2 ∧
      ∀ page, page ∈ (s.call {} (.work task)).2.pool.dirtyPages ↔ page ∈ s.pool.dirtyPages := by
  cases done : task.run s.keyed (s.pool.failing {}) with
  | mk answer q =>
    have loaded := task.run_reads query s.keyed _ _ _ done
    rw [call_work done]
    refine ⟨⟨loaded.view_eq, ?_⟩, loaded.mem_dirtyPages⟩
    cases answer with
    | error fault => rfl
    | ok answered => exact Task.run_keyed query done

theorem Steady.alike (hs : s.Steady) (ht : t.Steady) (same : s.SameView t) :
    Pool.Alike True (s.pool.failing {}) (t.pool.failing {}) where
  view_eq := same.view_eq.symm
  left := hs.coherent.filed
  right := ht.coherent.filed
  readable _ := ⟨⟨hs.calm.isOpen, rfl⟩, ht.calm.isOpen, rfl⟩

theorem Steady.call_same {c : Call} (hs : s.Steady) (ht : t.Steady) (same : s.SameView t)
    (allowed : s.Allows c) (allowed' : t.Allows c) :
    (s.call {} c).2.SameView (t.call {} c).2 ∧
      ∀ task, c = .work task → (t.call {} c).1 = (s.call {} c).1 := by
  have idle : (∀ task, c ≠ .work task) → (s.call {} c).2.SameView (t.call {} c).2 ∧
      ∀ task, c = .work task → (t.call {} c).1 = (s.call {} c).1 := by
    intro idle
    have seen := (hs.call_idle allowed idle).symm.trans same
    exact ⟨seen.trans (ht.call_idle allowed' idle), fun task work => (idle task work).elim⟩
  -- a count of written pages tells two sessions apart, so only tasks have the same answers
  cases c with
  | flush => exact idle fun task impossible => by cases impossible
  | drop => exact idle fun task impossible => by cases impossible
  | work task =>
    cases left : task.run s.keyed (s.pool.failing {}) with
    | mk answer p =>
      cases right : task.run t.keyed (t.pool.failing {}) with
      | mk other q =>
        obtain ⟨answers, after⟩ :=
          (task.run_agree (Pool.simulation_alike True) s.keyed).of_calm (hs.alike ht same)
        rw [← same.keyed, right, same.keyed, left] at answers after
        cases answers
        rw [call_work left, call_work right, same.keyed]
        exact ⟨⟨after.view_eq.symm, rfl⟩, fun _ _ => rfl⟩

theorem Steady.flushed (h : s.Steady) : (s.call {} .flush).2.flushed = true := by
  obtain ⟨q, answered, -⟩ := Pool.flush_calm h.twin.pools.failing.calm
  rw [call_flush answered]
  rfl

def Reached (s : Session) : Prop :=
  ∃ disk buffer keyed calls answers, disk.medium.IsEmpty ∧ disk.Calm ∧
    Run (start disk buffer keyed) calls answers s

theorem Reached.steady (h : s.Reached) : s.Steady := by
  obtain ⟨disk, buffer, keyed, calls, answers, empty, calm, run⟩ := h
  exact (steady_start empty calm buffer keyed).run run

/-- All that can be told of a session is what is seen of it: `copies` and the three that follow say
what is not seen, `same` that what is seen decides all the rest, and `elsewhere` that the run which
led to it could have been on any other empty disk. -/
structure Transparent (buffer : BufferSettings) (keyed : Nat → Keyed) (calls : List Call)
    (answers : List (Except Fault Answer)) (s : Session) : Prop where
  copies : ∀ (id : Nat) (page : Page), s.pool.cached[id]? = some page → page.dirty = false →
    page.block = (s.pool.disk.medium.read? id).getD .zero
  query : ∀ task : Task, task.isQuery = true → s.SameView (s.call {} (.work task)).2 ∧
    ∀ page, page ∈ (s.call {} (.work task)).2.pool.dirtyPages ↔ page ∈ s.pool.dirtyPages
  flush : s.SameView (s.call {} .flush).2
  drop : s.flushed = true → s.SameView (s.call {} .drop).2
  same : ∀ (t : Session) (c : Call), t.Reached → s.SameView t → s.Allows c → t.Allows c →
    (s.call {} c).2.SameView (t.call {} c).2 ∧
      ∀ task, c = .work task → (t.call {} c).1 = (s.call {} c).1
  elsewhere : ∀ other : Disk, other.medium.IsEmpty → other.Calm →
    ∃ t, Run (start other buffer keyed) calls answers t ∧ s.SameView t ∧
      t.pool.cached = s.pool.cached ∧ t.pool.diskReads = s.pool.diskReads ∧
      t.pool.journal = s.pool.journal ∧
      ∀ id, t.pool.disk.medium.block id = s.pool.disk.medium.block id

theorem transparent_of_run {disk : Disk} (empty : disk.medium.IsEmpty) (calm : disk.Calm)
    (buffer : BufferSettings) (keyed : Nat → Keyed) {calls : List Call}
    {answers : List (Except Fault Answer)} (run : Run (start disk buffer keyed) calls answers s) :
    Transparent buffer keyed calls answers s := by
  have first := steady_start empty calm buffer keyed
  have steady := first.run run
  constructor
  case copies => exact steady.coherent.copy
  case query => exact fun task query => call_query query
  case flush => exact steady.call_idle trivial fun task impossible => by cases impossible
  case drop =>
    intro flushed
    exact steady.call_idle flushed fun task impossible => by cases impossible
  case same =>
    intro t c reached same allowed allowed'
    exact steady.call_same reached.steady same allowed allowed'
  case elsewhere =>
    intro other empty' calm'
    have disks : disk.Twins other :=
      ⟨calm, calm', fun id => (empty.block_eq id).trans (empty'.block_eq id).symm⟩
    have twin : (start disk buffer keyed).Twin (start other buffer keyed) :=
      ⟨.on (.over disk buffer) disks, rfl, rfl⟩
    obtain ⟨t, again, twin⟩ := twin.run first run
    exact ⟨t, again, ⟨twin.pools.view_eq.symm, twin.keyed⟩, twin.pools.same_pages⟩

theorem Run.step {u : Session} {c : Call} {calls : List Call} {answer : Except Fault Answer}
    {answers : List (Except Fault Answer)} (called : s.call {} c = (answer, t))
    (allowed : s.Allows c) (rest : Run t calls answers u) :
    Run s (c :: calls) (answer :: answers) u := by
  have run : Run s (c :: calls) ((s.call {} c).1 :: answers) u :=
    .cons allowed (by rw [called]; exact rest)
  rwa [called] at run

theorem Steady.of_call (h : s.Steady) {c : Call} {answer : Except Fault Answer}
    (called : s.call {} c = (answer, t)) (allowed : s.Allows c) : t.Steady := by
  have after := h.call allowed
  rwa [called] at after

/-- Behind a flush, with all pages dropped, a record at coordinates is found and a key has its value:
over a memory, and with the same answers over a file. -/
theorem transparent_behind_drop : ∃ (keyed : Nat → Keyed) (c : Curve) (calls : List Call)
    (answers : List (Except Fault Answer)) (found : Spatial.Answer) (s t : Session),
    calls = [.work (.put 0 [1] [7, 8]), .work (.putAt (.curve c) ⟨33.0, 126.0⟩ [9]), .flush, .drop,
      .work (.search (.curve c) ⟨33.0, 126.0⟩ 1.0), .work (.get 0 [1])] ∧
    answers.drop 4 = [.ok (.search found), .ok (.value (some [7, 8]))] ∧ [9] ∈ found.records ∧
    Run (start .inMemory {} keyed) calls answers s ∧
    Run (start { medium := .file (.ofBytes []) } {} keyed) calls answers t ∧ s.SameView t := by
  let keyed : Nat → Keyed := fun _ => { settings := ⟨1⟩, accepted := by decide }
  let c : Curve := ⟨{ order := 1, maxPages := 2 }, by decide +kernel⟩
  have proposed : (Placement.curve c).pages ⟨33.0, 126.0⟩ 1.0 = .ok [0, 1] := by decide +kernel
  have home : (Placement.curve c).page ⟨33.0, 126.0⟩ = 0 := by decide +kernel
  let file : Disk := { medium := .file (.ofBytes []) }
  have empty : Disk.inMemory.medium.IsEmpty := rfl
  have calm : Disk.inMemory.Calm := ⟨trivial, rfl, rfl, rfl⟩
  have empty' : file.medium.IsEmpty := rfl
  have calm' : file.Calm := ⟨empty'.whole, rfl, rfl, rfl⟩
  have blank : Chain.Roomy (start .inMemory {} keyed).pool 0 := Chain.roomy_over empty rfl {}
  obtain ⟨_, a, first, roomy, one, -⟩ := call_put blank 0 [1] [7, 8] (by decide)
  obtain ⟨_, b, second, -, held, others⟩ :=
    call_putAt roomy (.curve c) ⟨33.0, 126.0⟩ [9] (by decide)
  have steady : b.Steady :=
    ((steady_start empty calm {} keyed).of_call first trivial).of_call second trivial
  -- flushed and dropped, the pages show what they did
  let w := (b.call {} .flush).2
  let d := (w.call {} .drop).2
  have flushed : w.flushed = true := steady.flushed
  have between : w.Steady := steady.call trivial
  have after : d.Steady := between.call flushed
  have written : b.SameView w := steady.call_idle trivial fun task impossible => by cases impossible
  have seen : b.SameView d :=
    written.trans (between.call_idle flushed fun task impossible => by cases impossible)
  rw [home, ← seen.view_eq] at held
  have readable : (d.pool.failing {}).Readable := ⟨after.calm.isOpen, rfl⟩
  obtain ⟨found, q, searched⟩ := Spatial.search_answers readable proposed
  have near := Spatial.mem_of_search searched proposed List.mem_cons_self .refl held
  have third : d.call {} (.work (.search (.curve c) ⟨33.0, 126.0⟩ 1.0)) = _ :=
    call_work (PoolM.bind_of_ok searched)
  have view := (Spatial.search_reads _ _ _ _ _ _ searched).view_eq
  obtain ⟨r, got⟩ := ((others 0 [1] [7, 8] one).of_same (t := ⟨⟨q, false⟩, d.keyed⟩)
    (view.trans seen.view_eq) seen.keyed).get (after.of_call third trivial).calm.isOpen
  have fourth : Session.call ⟨⟨q, false⟩, d.keyed⟩ {} (.work (.get 0 [1])) = _ :=
    call_work (PoolM.bind_of_ok got)
  have run := Run.step first trivial <| Run.step second trivial <|
    .cons (c := .flush) trivial <| .cons (c := .drop) flushed <|
    Run.step third trivial <| Run.step fourth trivial <| .nil _
  obtain ⟨t, again, same, -⟩ :=
    (transparent_of_run empty calm {} keyed run).elsewhere file empty' calm'
  exact ⟨keyed, c, _, _, found, _, t, rfl, rfl, near, run, again, same⟩

end Session

end Shared

end Gazetteer
