import Gazetteer.Proofs.Chain.Reached
import Gazetteer.Proofs.Chain.Intact
import Gazetteer.Spatial

/-! A search returns every record whose chain begins at a page that it looks at, and no record more
often than it was put. The pages hold all records that were ever put, each once and in the order of
the puts; the chain of a record's place leads to the page that holds it, now and later. -/
namespace Gazetteer.Spatial

/-- A put that answered: what was put where, and the place that was answered. -/
structure Deposit where
  place : Coordinate
  value : List UInt8
  kept : RecordId

/-- Spatial records in use. `stored` has the puts that answered, the oldest first. -/
structure Session extends Pool.Usage where
  stored : List Deposit := []

namespace Session

variable (placement : Placement)

def start (disk : Disk) (buffer : BufferSettings) : Session := { pool := .over disk buffer }

def put (s : Session) (plan : FaultPlan) (place : Coordinate) (value : List UInt8) : Session :=
  match Spatial.put placement place value (s.pool.failing plan) with
  | (.ok kept, pool) => { pool, stored := s.stored ++ [⟨place, value, kept⟩] }
  | (.error _, pool) => { s with toUsage := { pool } }

def search (s : Session) (plan : FaultPlan) (place : Coordinate) (radiusKm : Float) : Session :=
  let pool := (Spatial.search placement place radiusKm (s.pool.failing plan)).2
  { s with toUsage := { pool } }

def flush (s : Session) (plan : FaultPlan) : Session :=
  { s with toUsage := s.toUsage.flush plan }

def drop (s : Session) : Session := { s with toUsage := s.toUsage.drop }

/-- One call, in which the disk fails as planned. Pages are dropped only behind a flush that
answered. -/
inductive Step (s : Session) : Session → Prop where
  | put (plan : FaultPlan) (place : Coordinate) (value : List UInt8) :
      Step s (s.put placement plan place value)
  | search (plan : FaultPlan) (place : Coordinate) (radiusKm : Float) :
      Step s (s.search placement plan place radiusKm)
  | flush (plan : FaultPlan) : Step s (s.flush plan)
  | drop (flushed : s.flushed = true) : Step s s.drop

/-- Each page holds what was put there, and is reached from where its records belong. -/
structure Valid (s : Session) : Prop extends s.toUsage.Sound where
  records : ∀ id : Nat, (s.pool.view id).records =
    (s.stored.filter fun d => d.kept.page = id).map Deposit.value
  reached : ∀ d ∈ s.stored, Chain.Reaches s.pool.view (placement.page d.place) d.kept.page

end Session

variable {p q : Pool} {placement : Placement}

theorem search_reads (placement : Placement) (place : Coordinate) (radiusKm : Float) :
    PoolM.Reads (search placement place radiusKm) := by
  refine .bind (.except _) fun candidates => ?_
  refine .bind (Chain.collectAll_reads ∅ candidates) fun gathered => ?_
  exact .bind (.note _) fun _ => .pure _

/-- A search that answers returns the records of all pages that its candidates lead to. -/
theorem search_ok {place : Coordinate} {radiusKm : Float} {answer : Answer}
    (h : search placement place radiusKm p = (.ok answer, q)) :
    ∃ candidates, placement.pages place radiusKm = .ok candidates ∧
      ∃ order : List Nat, order.Nodup ∧
        (∀ page, page ∈ order ↔ ∃ start ∈ candidates, Chain.Reaches p.view start page) ∧
        answer.records = order.flatMap (fun page => (p.view page).records) ∧
        answer.pagesRead = order.length := by
  obtain ⟨candidates, r, proposed, rest⟩ := PoolM.bind_ok h
  obtain ⟨found, rfl⟩ := PoolM.except_ok proposed
  obtain ⟨⟨fetched, records⟩, s, collected, later⟩ := PoolM.bind_ok rest
  obtain ⟨u, t, noted, answered⟩ := PoolM.bind_ok later
  obtain ⟨same, -⟩ := PoolM.pure_ok answered
  subst same
  exact ⟨candidates, found, Chain.collectAll_ok collected⟩

theorem mem_of_search {place : Coordinate} {radiusKm : Float} {candidates : List Nat}
    {answer : Answer} {start page : Nat} {value : List UInt8}
    (answered : search placement place radiusKm p = (.ok answer, q))
    (proposed : placement.pages place radiusKm = .ok candidates) (near : start ∈ candidates)
    (reached : Chain.Reaches p.view start page) (held : value ∈ (p.view page).records) :
    value ∈ answer.records := by
  obtain ⟨found, same, order, -, mem, records, -⟩ := search_ok answered
  cases Except.ok.inj (proposed.symm.trans same)
  rw [records, List.mem_flatMap]
  exact ⟨page, (mem page).mpr ⟨start, near, reached⟩, held⟩

theorem search_answers {place : Coordinate} {radiusKm : Float} {candidates : List Nat}
    (readable : p.Readable) (proposed : placement.pages place radiusKm = .ok candidates) :
    ∃ answer q, search placement place radiusKm p = (.ok answer, q) := by
  cases h : search placement place radiusKm p with
  | mk result q =>
    cases result with
    | ok answer => exact ⟨answer, q, rfl⟩
    | error fault =>
      rcases PoolM.bind_error h with refused | ⟨found, r, same, rest⟩
      · have impossible := (PoolM.except_ok refused).1
        rw [proposed] at impossible
        cases impossible
      · obtain ⟨-, rfl⟩ := PoolM.except_ok same
        rcases PoolM.bind_error rest with failed | ⟨gathered, s, collected, later⟩
        · exact (Chain.collectAll_answers readable failed).elim
        · rcases PoolM.bind_error later with noted | ⟨u, t, noted, answered⟩
          · exact (PoolM.modify_error noted).elim
          · exact (PoolM.pure_error answered).elim

theorem countP_or {f g : Deposit → Bool} (apart : ∀ d, f d = true → g d = false)
    (stored : List Deposit) :
    (stored.countP fun d => f d || g d) = stored.countP f + stored.countP g := by
  induction stored with
  | nil => rfl
  | cons d stored ih =>
    simp only [List.countP_cons, ih]
    cases first : f d with
    | false => simp only [Bool.false_or, Bool.false_eq_true, if_false]; omega
    | true => simp only [apart d first, Bool.true_or, Bool.false_eq_true, if_true, if_false]; omega

theorem count_flatMap_pages {order : List Nat} (nodup : order.Nodup) (stored : List Deposit)
    (value : List UInt8) :
    (order.flatMap fun page =>
      (stored.filter fun d => d.kept.page = page).map Deposit.value).count value =
      stored.countP fun d => d.value = value ∧ d.kept.page ∈ order := by
  induction order with
  | nil => simp
  | cons page order ih =>
    obtain ⟨fresh, nodup⟩ := List.nodup_cons.mp nodup
    have apart : ∀ d : Deposit, decide (d.value = value ∧ d.kept.page = page) = true →
        decide (d.value = value ∧ d.kept.page ∈ order) = false := by
      intro d here
      obtain ⟨-, same⟩ := of_decide_eq_true here
      apply decide_eq_false
      rintro ⟨-, later⟩
      exact fresh (same ▸ later)
    have first : ((stored.filter fun d => d.kept.page = page).map Deposit.value).count value =
        stored.countP fun d => d.value = value ∧ d.kept.page = page := by
      rw [List.count_eq_countP, List.countP_map, List.countP_filter]
      apply List.countP_congr
      intro d _
      simp
    rw [List.flatMap_cons, List.count_append, ih nodup, first, ← countP_or apart]
    apply List.countP_congr
    intro d _
    simp only [Bool.or_eq_true, decide_eq_true_eq, List.mem_cons]
    tauto

namespace Session

variable {s t : Session}

theorem valid_start {disk : Disk} (empty : disk.medium.IsEmpty) (buffer : BufferSettings) :
    (start disk buffer).Valid placement where
  toSound := .of_intact (Pool.intact_over empty buffer)
  records := by
    intro id
    change ((Pool.over disk buffer).view id).records = []
    rw [Pool.view_over empty]
    exact Block.records_of_blank Block.isFormatted_zero
  reached := by
    intro d stored
    cases stored

theorem Valid.of_view_eq {u : Pool.Usage} (h : s.Valid placement) (sound : u.Sound)
    (same : u.pool.view = s.pool.view) : Valid placement { s with toUsage := u } := by
  refine ⟨sound, ?_, ?_⟩
  · intro id
    rw [same]
    exact h.records id
  · intro d stored
    rw [same]
    exact h.reached d stored

theorem put_of_ok {plan : FaultPlan} {place : Coordinate} {value : List UInt8} {kept : RecordId}
    (answered : Spatial.put placement place value (s.pool.failing plan) = (.ok kept, p)) :
    s.put placement plan place value =
      { pool := p, stored := s.stored ++ [⟨place, value, kept⟩] } := by
  rw [Session.put, answered]

theorem step_put (placement : Placement) {n : Nat} (roomy : Chain.Roomy s.pool n)
    (place : Coordinate) (value : List UInt8)
    (room : n + Block.weight value ≤ pageSize - Block.headerSize) :
    ∃ t kept, Step placement s t ∧ t.stored = s.stored ++ [⟨place, value, kept⟩] ∧
      Chain.Roomy t.pool (n + Block.weight value) := by
  obtain ⟨slot, q, appended, after, -⟩ :=
    roomy.append room (placement.page place) placement.maxPages
  have step : Step placement s _ := .put {} place value
  rw [put_of_ok appended] at step
  exact ⟨_, _, step, rfl, after⟩

/-- Puts that one page has room for all answer, wherever their places belong. -/
theorem run_of_puts (placement : Placement) {n : Nat} (roomy : Chain.Roomy s.pool n)
    (puts : List (Coordinate × List UInt8))
    (room : n + Block.weights (puts.map Prod.snd) ≤ pageSize - Block.headerSize) :
    ∃ t made, Relation.ReflTransGen (Step placement) s t ∧ t.stored = s.stored ++ made ∧
      made.map (fun d => (d.place, d.value)) = puts ∧ t.pool.disk.isOpen = true := by
  induction puts generalizing s n with
  | nil => exact ⟨s, [], .refl, (List.append_nil _).symm, rfl, roomy.isOpen⟩
  | cons put puts ih =>
    rw [List.map_cons, Block.weights_cons, ← Nat.add_assoc] at room
    obtain ⟨t, kept, step, first, after⟩ := step_put placement roomy put.1 put.2
      (Nat.le_of_add_right_le room)
    obtain ⟨u, made, run, stored, same, isOpen⟩ := ih after room
    refine ⟨u, ⟨put.1, put.2, kept⟩ :: made, .head step run, ?_, ?_, isOpen⟩
    · rw [stored, first, List.append_assoc, List.singleton_append]
    · rw [List.map_cons, same]

theorem Valid.found (h : s.Valid placement) {d : Deposit} (stored : d ∈ s.stored) {plan : FaultPlan}
    {place : Coordinate} {radiusKm : Float} {candidates : List Nat} {answer : Answer}
    (proposed : placement.pages place radiusKm = .ok candidates)
    (near : placement.page d.place ∈ candidates)
    (answered : Spatial.search placement place radiusKm (s.pool.failing plan) = (.ok answer, q)) :
    d.value ∈ answer.records := by
  refine mem_of_search answered proposed near (h.reached d stored) ?_
  rw [Pool.view_failing, h.records, List.mem_map]
  exact ⟨d, List.mem_filter.mpr ⟨stored, decide_eq_true rfl⟩, rfl⟩

theorem Valid.put (h : s.Valid placement) (plan : FaultPlan) (place : Coordinate)
    (value : List UInt8) : (s.put placement plan place value).Valid placement := by
  have intact := h.intact.failing plan
  unfold Session.put
  split
  · next kept pool call =>
    obtain ⟨after, appends⟩ := Chain.append_intact intact call
    refine ⟨.of_intact after, ?_, ?_⟩
    · intro id
      rw [appends.records, List.filter_append, List.map_append, Pool.view_failing, h.records id]
      by_cases same : kept.page = id
      · simp [same]
      · simp [same]
    · intro d stored
      rcases List.mem_append.mp stored with old | new
      · exact appends.reaches_of_reaches (h.reached d old)
      · cases List.mem_singleton.mp new
        exact appends.reaches
  · next fault pool call =>
    obtain ⟨after, same⟩ := Chain.append_failed intact call
    exact h.of_view_eq (.of_intact after) same

theorem Valid.step (h : s.Valid placement) (step : Step placement s t) : t.Valid placement := by
  cases step with
  | put plan place value => exact h.put plan place value
  | search plan place radiusKm =>
    have loaded : Pool.Loads (s.pool.failing plan)
        (Spatial.search placement place radiusKm (s.pool.failing plan)).2 :=
      search_reads placement place radiusKm _ _ _ rfl
    exact h.of_view_eq (.of_intact ((h.intact.failing plan).of_loads loaded)) loaded.view_eq
  | flush plan => exact h.of_view_eq (h.toSound.flush plan).1 (h.toSound.flush plan).2
  | drop flushed => exact h.of_view_eq (h.toSound.drop flushed).1 (h.toSound.drop flushed).2

theorem Valid.run (h : s.Valid placement) (run : Relation.ReflTransGen (Step placement) s t) :
    t.Valid placement := by
  induction run with
  | refl => exact h
  | tail _ step ih => exact ih.step step

/-- A search that answers returns a value at least as often as it was put at places whose pages the
search looks at, and at most as often as it was put. -/
theorem search_complete_of_run {disk : Disk} (empty : disk.medium.IsEmpty) (buffer : BufferSettings)
    (run : Relation.ReflTransGen (Step placement) (start disk buffer) s) (plan : FaultPlan)
    {place : Coordinate} {radiusKm : Float} {answer : Answer}
    (answered : Spatial.search placement place radiusKm (s.pool.failing plan) = (.ok answer, q)) :
    ∃ candidates, placement.pages place radiusKm = .ok candidates ∧ ∀ value : List UInt8,
      (s.stored.countP fun d => d.value = value ∧ placement.page d.place ∈ candidates) ≤
        answer.records.count value ∧
      answer.records.count value ≤ s.stored.countP fun d => d.value = value := by
  have valid : s.Valid placement := (valid_start empty buffer).run run
  obtain ⟨candidates, proposed, order, nodup, mem, records, -⟩ := search_ok answered
  refine ⟨candidates, proposed, ?_⟩
  intro value
  have shown : answer.records = order.flatMap fun page =>
      (s.stored.filter fun d => d.kept.page = page).map Deposit.value := by
    rw [records]
    congr 1
    funext page
    exact valid.records page
  rw [shown, count_flatMap_pages nodup]
  constructor
  · apply List.countP_mono_left
    intro d stored wanted
    obtain ⟨same, near⟩ := of_decide_eq_true wanted
    exact decide_eq_true ⟨same, (mem _).mpr ⟨_, near, valid.reached d stored⟩⟩
  · apply List.countP_mono_left
    intro d stored wanted
    exact decide_eq_true (of_decide_eq_true wanted).1

/-- Puts on two pages that are searched, and one on a page that is not. -/
theorem search_behind_puts : ∃ (c : Curve) (s : Session) (answer : Answer) (q : Pool),
    Relation.ReflTransGen (Step (.curve c)) (start .inMemory {}) s ∧
    s.stored.map (fun d => (d.place, d.value)) =
      [(⟨33.1, 126.1⟩, [7]), (⟨38.5, 129.5⟩, [9]), (⟨35.0, 126.0⟩, [7])] ∧
    Spatial.search (.curve c) ⟨33.0, 126.0⟩ 0.009 (s.pool.failing {}) = (.ok answer, q) ∧
    answer.records.count [7] = 2 ∧ answer.records.count [9] ≤ 1 := by
  let c : Curve := ⟨{ order := 2, maxPages := 8 }, by decide +kernel⟩
  let puts : List (Coordinate × List UInt8) :=
    [(⟨33.1, 126.1⟩, [7]), (⟨38.5, 129.5⟩, [9]), (⟨35.0, 126.0⟩, [7])]
  have proposed : (Placement.curve c).pages ⟨33.0, 126.0⟩ 0.009 = .ok [0, 1] := by decide +kernel
  have empty : Disk.inMemory.medium.IsEmpty := rfl
  have roomy : Chain.Roomy (start .inMemory {}).pool 0 := Chain.roomy_over empty rfl {}
  obtain ⟨s, made, run, stored, same, isOpen⟩ := run_of_puts (.curve c) roomy puts (by decide)
  obtain ⟨answer, q, answered⟩ := search_answers (p := s.pool.failing {}) ⟨isOpen, rfl⟩ proposed
  obtain ⟨candidates, found, counts⟩ := search_complete_of_run empty {} run {} answered
  cases Except.ok.inj (proposed.symm.trans found)
  -- what was put is known by place and value, which is all that the counts ask for
  have near : ∀ value : List UInt8, s.stored.countP (fun d => d.value = value ∧
      (Placement.curve c).page d.place ∈ [0, 1]) =
        puts.countP fun put => put.2 = value ∧ (Placement.curve c).page put.1 ∈ [0, 1] := by
    intro value
    rw [stored, ← same, List.countP_map]
    rfl
  have all : ∀ value : List UInt8, s.stored.countP (fun d => d.value = value) =
      puts.countP fun put => put.2 = value := by
    intro value
    rw [stored, ← same, List.countP_map]
    rfl
  have two : puts.countP (fun put => put.2 = [7] ∧ (Placement.curve c).page put.1 ∈ [0, 1]) = 2 := by
    decide +kernel
  simp only [near, all] at counts
  refine ⟨c, s, answer, q, run, ?_, answered, ?_, (counts [9]).2⟩
  · rw [stored]
    exact same
  · exact Nat.le_antisymm (counts [7]).2 (two ▸ (counts [7]).1)

end Session

end Gazetteer.Spatial
