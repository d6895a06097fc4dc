import Gazetteer.Proofs.Chain.Failure
import Gazetteer.Proofs.Chain.Overflow
import Gazetteer.Proofs.Pool.Resume
import Gazetteer.Proofs.Spatial.Search

/-! No chain leads back to itself, also where pages were lost. A page gets its link when it is full,
to a page that has no link of its own, so a new link closes no circle. The medium is behind the
pool, and a flush that stops midway makes it a mix of old and new pages; but each of its links is a
link of the pool too, since links are never changed. So what is left when pages are dropped has no
circle either, although it may link a page that was never written, or the same page twice. -/
namespace Gazetteer.Chain

variable {view : Nat → Block} {p q : Pool} {home maxPages : Nat} {value : List UInt8}

def Acyclic (view : Nat → Block) : Prop := ∀ id, ¬ Relation.TransGen (Linked view) id id

theorem Acyclic.ends (h : Acyclic view) (home : Nat) : Ends view home := fun id _ => h id

theorem Acyclic.of_linked {old new : Nat → Block} (h : Acyclic new)
    (links : ∀ id next, Linked old id next → Linked new id next) : Acyclic old :=
  fun id cycle => h id (Relation.TransGen.mono links _ _ cycle)

/-- A link to a page that has none closes no circle. -/
theorem Acyclic.grow {old new : Nat → Block} (h : Acyclic old) (sink : Nat)
    (unlinked : ∀ next, ¬ Linked new sink next)
    (links : ∀ id next, Linked new id next → Linked old id next ∨ next = sink) : Acyclic new := by
  -- nothing leaves the sink, so only the last step of a path can be new
  have old_path : ∀ a b, Relation.TransGen (Linked new) a b →
      Relation.TransGen (Linked old) a b ∨ b = sink := by
    intro a b path
    induction path with
    | single step =>
      rcases links _ _ step with known | into
      · exact Or.inl (.single known)
      · exact Or.inr into
    | tail _ step ih =>
      rcases ih with before | rfl
      · rcases links _ _ step with known | into
        · exact Or.inl (before.tail known)
        · exact Or.inr into
      · exact (unlinked _ step).elim
  intro id cycle
  rcases old_path id id cycle with before | rfl
  · exact h id before
  · obtain ⟨next, step, -⟩ := Relation.TransGen.head'_iff.mp cycle
    exact unlinked next step

theorem acyclic_of_blank (blank : ∀ id, (view id).isFormatted = false) : Acyclic view := by
  intro id cycle
  obtain ⟨next, step, -⟩ := Relation.TransGen.head'_iff.mp cycle
  exact not_linked_of_blank (blank id) next step

theorem append_acyclic {place : RecordId} (filed : p.Filed) (acyclic : Acyclic p.view)
    (h : append home value maxPages p = (.ok place, q)) : Acyclic q.view := by
  obtain ⟨last, links⟩ := append_new_link filed h
  by_cases formatted : (p.view place.page).isFormatted = true
  · -- no page was blank, so no link is new
    refine acyclic.of_linked ?_
    intro id next linked
    rcases links id next linked with known | ⟨-, -, -, blank⟩
    · exact known
    · rw [formatted] at blank
      cases blank
  · refine acyclic.grow place.page ?_ ?_
    · intro next linked
      rcases links _ next linked with known | ⟨here, -, ready, -⟩
      · exact formatted known.1
      · exact formatted (here ▸ ready)
    · intro id next linked
      rcases links id next linked with known | ⟨-, into, -, -⟩
      · exact Or.inl known
      · exact Or.inr into

/-- The pool shows no circle, and all links of the medium. -/
structure Forward (p : Pool) : Prop where
  coherent : p.Coherent
  acyclic : Acyclic p.view
  written : ∀ id next, Linked p.disk.medium.block id next → Linked p.view id next

namespace Forward

theorem of_empty_cache (whole : p.disk.medium.Whole) (empty : p.cached = ∅)
    (acyclic : Acyclic p.disk.medium.block) : Forward p := by
  have same := Pool.view_of_empty empty
  exact ⟨Pool.coherent_of_empty whole empty, same ▸ acyclic, fun id next linked => same ▸ linked⟩

theorem of_same (h : Forward p) (cached : q.cached = p.cached)
    (medium : q.disk.medium = p.disk.medium) : Forward q := by
  have same := Pool.view_of_same cached medium
  refine ⟨h.coherent.of_same cached medium, same ▸ h.acyclic, ?_⟩
  rw [same, medium]
  exact h.written

theorem stored (h : Forward p) : Acyclic p.disk.medium.block := h.acyclic.of_linked h.written

theorem of_loads (h : Forward p) (loaded : Pool.Loads p q) : Forward q := by
  refine ⟨loaded.coherent h.coherent, ?_, ?_⟩
  · rw [loaded.view_eq]
    exact h.acyclic
  · rw [loaded.view_eq, loaded.medium]
    exact h.written

theorem append (h : Forward p) {answer : Except Fault RecordId}
    (called : Chain.append home value maxPages p = (answer, q)) : Forward q := by
  cases answer with
  | error fault => exact h.of_loads (append_error called)
  | ok place =>
    obtain ⟨-, -, growth, -, updated⟩ := append_ok h.coherent.filed called
    refine ⟨updated.coherent h.coherent, append_acyclic h.coherent.filed h.acyclic called, ?_⟩
    rw [updated.medium]
    exact fun id next linked => append_linked h.coherent.filed called (h.written id next linked)

theorem flush (h : Forward p) {answer : Except Fault Nat} (called : Pool.flush p = (answer, q)) :
    Forward q := by
  obtain ⟨settled, -⟩ := Pool.flush_settles h.coherent called
  refine ⟨settled.coherent, settled.view_eq ▸ h.acyclic, ?_⟩
  intro id next linked
  rw [settled.view_eq]
  rcases settled.medium id with kept | written
  · rw [Linked, kept] at linked
    exact h.written id next linked
  · rwa [Linked, written] at linked

theorem of_empty (empty : p.disk.medium.IsEmpty) (cached : p.cached = ∅) : Forward p := by
  refine .of_empty_cache empty.whole cached (acyclic_of_blank ?_)
  intro id
  rw [empty.block_eq]
  exact Block.isFormatted_zero

end Forward

/-- One call by any of the records that share a pool, while the disk fails as planned, or a moment
at which pages are lost: they may be dropped, or the disk opened anew, flushed or not. -/
inductive Step (p : Pool) : Pool → Prop where
  | put (plan : FaultPlan) (records : Keyed) (key value : List UInt8) :
      Step p (records.put key value (p.failing plan)).2
  | putAt (plan : FaultPlan) (placement : Placement) (place : Coordinate) (value : List UInt8) :
      Step p (Spatial.put placement place value (p.failing plan)).2
  | get (plan : FaultPlan) (records : Keyed) (key : List UInt8) :
      Step p (records.get key (p.failing plan)).2
  | values (plan : FaultPlan) (records : Keyed) : Step p (records.values (p.failing plan)).2
  | search (plan : FaultPlan) (placement : Placement) (place : Coordinate) (radiusKm : Float) :
      Step p (Spatial.search placement place radiusKm (p.failing plan)).2
  | flush (plan : FaultPlan) : Step p (Pool.flush (p.failing plan)).2
  | close (plan : FaultPlan) : Step p (Pool.close (p.failing plan)).2
  | drop : Step p (Pool.dropAll p).2
  | reopen : Step p p.reopened

theorem Forward.step (h : Forward p) (step : Step p q) : Forward q := by
  have ready : ∀ plan, Forward (p.failing plan) := fun plan => h.of_same rfl rfl
  cases step with
  | put plan records key value =>
    cases called : records.put key value (p.failing plan) with
    | mk answer q =>
      cases answer with
      | error fault =>
        rcases PoolM.bind_error called with failed | ⟨place, r, appended, indexed⟩
        · exact (ready plan).append failed
        · exact (PoolM.pure_error indexed).elim
      | ok changed =>
        obtain ⟨place, r, appended, indexed⟩ := PoolM.bind_ok called
        obtain ⟨-, rfl⟩ := PoolM.pure_ok indexed
        exact (ready plan).append appended
  | putAt plan placement place value => exact (ready plan).append rfl
  | get plan records key => exact (ready plan).of_loads (Keyed.get_reads records key _ _ _ rfl)
  | values plan records => exact (ready plan).of_loads (Keyed.recordsAt_reads _ _ _ _ rfl)
  | search plan placement place radiusKm =>
    exact (ready plan).of_loads (Spatial.search_reads placement place radiusKm _ _ _ rfl)
  | flush plan => exact (ready plan).flush rfl
  | close plan =>
    obtain ⟨written, r, flushed, cached, medium, -⟩ :=
      Pool.close_flush (rfl : Pool.close (p.failing plan) = _)
    exact ((ready plan).flush flushed).of_same cached medium
  | drop => exact .of_empty_cache h.coherent.whole rfl h.stored
  | reopen =>
    cases medium : p.disk.medium with
    | memory pages =>
      have lost : p.reopened.disk.medium = .memory ∅ := by
        simp only [Pool.reopened, Disk.reopened, medium, Medium.reopened]
      have empty : p.reopened.disk.medium.IsEmpty := by
        rw [lost]
        rfl
      exact .of_empty empty rfl
    | file f =>
      have same : p.reopened.disk.medium = p.disk.medium := by
        simp only [Pool.reopened, Disk.reopened, medium, Medium.reopened]
      exact .of_empty_cache (same ▸ h.coherent.whole) rfl (same ▸ h.stored)

theorem Forward.run (h : Forward p) (run : Relation.ReflTransGen Step p q) : Forward q := by
  induction run with
  | refl => exact h
  | tail _ step ih => exact ih.step step

/-- The chain of a page never leads back to a page that it came through, so the search for room ends
after it has come to each of its pages once. -/
theorem acyclic_of_run {disk : Disk} (empty : disk.medium.IsEmpty) (buffer : BufferSettings)
    (run : Relation.ReflTransGen Step (.over disk buffer) p) :
    (∀ id, ¬ Relation.TransGen (Linked p.view) id id) ∧
    ∀ (plan : FaultPlan) (home maxPages : Nat) (value : List UInt8),
      (∃ trail answer q, Loop maxPages value.length (p.failing plan) home trail answer q ∧
        trail.Nodup ∧ roomFrom maxPages value.length ∅ home (p.failing plan) = (answer, q)) ∧
      ∀ id, (append home value maxPages (p.failing plan)).1 ≠ .error (.cyclicChain id) := by
  have forward : Forward p := (Forward.of_empty (p := .over disk buffer) empty rfl).run run
  refine ⟨forward.acyclic, ?_⟩
  intro plan home maxPages value
  have ends : Ends (p.failing plan).view home := forward.acyclic.ends home
  constructor
  · cases found : roomFrom maxPages value.length ∅ home (p.failing plan) with
    | mk answer q =>
      obtain ⟨trail, loop⟩ := roomFrom_loop found ends
      exact ⟨trail, answer, q, loop, loop.nodup ends, rfl⟩
  · intro id failed
    have refusal := append_refusal ends (Prod.ext failed rfl)
    cases refusal

/-- A chain of two pages of which a flush writes the first only, and the file opened anew: its link
leads to a page that was never written. -/
theorem acyclic_behind_lost_page : ∃ p,
    Relation.ReflTransGen Step (.over { medium := .file (.ofBytes []) } {}) p ∧
    Linked p.view 0 1 ∧ (p.view 1).isFormatted = false ∧
      ∀ id, ¬ Relation.TransGen (Linked p.view) id id := by
  let disk : Disk := { medium := .file (.ofBytes []) }
  let c : Curve := ⟨{ order := 1, maxPages := 2 }, by decide +kernel⟩
  have home : c.page ⟨33.0, 126.0⟩ = 0 := by decide +kernel
  have empty : disk.medium.IsEmpty := rfl
  obtain ⟨long, fills⟩ : ∃ long : List UInt8, long.length = Block.maxRecord :=
    ⟨List.replicate _ 7, List.length_replicate⟩
  have fits : [(7 : UInt8)].length ≤ Block.maxRecord := by decide
  have linkable : 2 < linkLimit := by decide
  obtain ⟨p, q, first, second, intact, isOpen, medium, linked, -⟩ :=
    append_overflows empty rfl {} fills fits Nat.one_lt_two linkable
  have put : ∀ value, Spatial.put (.curve c) ⟨33.0, 126.0⟩ value = append 0 value 2 := by
    intro value
    change append (c.page _) value 2 = _
    rw [home]
  have here : Step (.over disk {}) _ := .putAt {} (.curve c) ⟨33.0, 126.0⟩ long
  have there : Step p _ := .putAt {} (.curve c) ⟨33.0, 126.0⟩ [7]
  rw [put, first] at here
  rw [put, second] at there
  have coherent := (intact.failing { writes := [1] }).coherent
  cases flushed : Pool.flush (q.failing { writes := [1] }) with
  | mk answer r =>
    have stop : Step q _ := .flush { writes := [1] }
    rw [flushed] at stop
    have run := (Relation.ReflTransGen.single here).tail there |>.tail stop |>.tail .reopen
    have lasting : r.disk.medium.Lasting := by
      apply (Pool.flush_settles coherent flushed).1.lasting
      rw [Pool.failing, medium]
      trivial
    have view : r.reopened.view = r.disk.medium.block := by
      rw [Pool.view_of_empty rfl, Pool.reopened, Disk.reopened, lasting.reopened]
    have written : r.disk.medium.block 0 = q.view 0 := by
      apply Pool.flush_block_of_safe coherent flushed
      intro id below
      cases Nat.le_zero.mp below
      simp [Disk.writeFault?, Pool.failing, isOpen]
    have fails : (q.failing { writes := [1] }).disk.writeFault? 1 = some (.io (.badWrite 1)) := rfl
    have lost : r.disk.medium.block 1 = .zero := by
      rw [Pool.flush_block_of_fault coherent flushed fails]
      change q.disk.medium.block 1 = _
      rw [medium, empty.block_eq]
    refine ⟨_, run, ?_, ?_, (acyclic_of_run empty {} run).1⟩
    · rwa [view, Linked, written]
    · rw [view, lost]
      exact Block.isFormatted_zero

end Gazetteer.Chain
