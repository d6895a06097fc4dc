import Gazetteer.Proofs.Chain.Intact
import Mathlib.Data.List.Sort
import Mathlib.Data.List.TakeWhile

/-! A flush that a failing write interrupts. Up to that write every page is on the medium and clean;
from there on all of them are as they were, and dirty. So the next flush begins where the one before
it stopped, and nothing is written twice. -/
namespace Gazetteer

namespace Medium

def writeAll (m : Medium) (pages : List Page) : Medium :=
  pages.foldl (fun m page => m.write page.id page.block) m

@[simp] theorem writeAll_cons (m : Medium) (page : Page) (pages : List Page) :
    m.writeAll (page :: pages) = (m.write page.id page.block).writeAll pages := rfl

theorem read?_write_of_apart {m : Medium} {page other : Nat} {held : Block} (block : Block)
    (apart : page ≠ other) (there : m.read? other = some held) :
    (m.write page block).read? other = some held := by
  cases m with
  | memory pages => simpa [read?, write, Std.ExtTreeMap.getElem?_insert, apart] using there
  | file f =>
    have whole : (other + 1) * pageSize ≤ f.length := by
      by_contra torn
      simp [read?, PageFile.read?, torn] at there
    exact (f.read?_write_of_whole block apart.symm whole).trans there

theorem read?_writeAll_of_apart {m : Medium} {pages : List Page} {other : Nat} {held : Block}
    (apart : ∀ page ∈ pages, page.id ≠ other) (there : m.read? other = some held) :
    (m.writeAll pages).read? other = some held := by
  induction pages generalizing m with
  | nil => exact there
  | cons page pages ih =>
    obtain ⟨here, later⟩ := List.forall_mem_cons.mp apart
    exact ih later (read?_write_of_apart page.block here there)

theorem read?_writeAll_of_mem {m : Medium} {pages : List Page}
    (ascending : pages.Pairwise fun a b => a.id < b.id) {page : Page} (member : page ∈ pages) :
    (m.writeAll pages).read? page.id = some page.block := by
  induction pages generalizing m with
  | nil => cases member
  | cons first pages ih =>
    obtain ⟨least, rest⟩ := List.pairwise_cons.mp ascending
    rw [writeAll_cons]
    rcases List.mem_cons.mp member with rfl | later
    · exact read?_writeAll_of_apart (fun other behind => Nat.ne_of_gt (least other behind))
        (read?_write_self m page.id page.block)
    · exact ih rest later

theorem block_writeAll_of_apart {m : Medium} {pages : List Page} {id : Nat} (whole : m.Whole)
    (apart : ∀ page ∈ pages, page.id ≠ id) : (m.writeAll pages).block id = m.block id := by
  induction pages generalizing m with
  | nil => rfl
  | cons page pages ih =>
    obtain ⟨here, later⟩ := List.forall_mem_cons.mp apart
    rw [writeAll_cons, ih (whole_write whole _ _) later, block_write whole, if_neg here]

end Medium

namespace Pool

variable {p q : Pool} {page : Page} {pages written left : List Page}

def wroteAll (p : Pool) (pages : List Page) : Pool := pages.foldl wrote p

@[simp] theorem wroteAll_cons (p : Pool) (page : Page) (pages : List Page) :
    p.wroteAll (page :: pages) = (p.wrote page).wroteAll pages := rfl

theorem disk_wrote (p : Pool) (page : Page) :
    (p.wrote page).disk = { p.disk with
      medium := p.disk.medium.write page.id page.block
      calls := .wrote page.id page.block :: p.disk.calls } := rfl

def writable (p : Pool) (page : Page) : Bool := (p.disk.writeFault? page.id).isNone

theorem disk_wroteAll (p : Pool) (pages : List Page) :
    (p.wroteAll pages).disk = { p.disk with
      medium := p.disk.medium.writeAll pages
      calls := (pages.map fun page => .wrote page.id page.block).reverse ++ p.disk.calls } := by
  induction pages generalizing p with
  | nil => rfl
  | cons page pages ih => simp [ih, disk_wrote]

theorem forM_writeBack_ok (safe : ∀ page ∈ pages, p.disk.writeFault? page.id = none) :
    pages.forM writeBack p = (.ok (), p.wroteAll pages) := by
  induction pages generalizing p with
  | nil => rfl
  | cons page pages ih =>
    obtain ⟨here, later⟩ := List.forall_mem_cons.mp safe
    exact (PoolM.bind_of_ok (writeBack_of_none here)).trans (ih later)

theorem forM_writeBack_error {fault : Fault}
    (safe : ∀ page ∈ written, p.disk.writeFault? page.id = none)
    (fails : p.disk.writeFault? page.id = some fault) (above : List Page) :
    (written ++ page :: above).forM writeBack p =
      (.error fault, (p.wroteAll written).missed page) := by
  induction written generalizing p with
  | nil => exact PoolM.bind_of_error (writeBack_of_some fails)
  | cons first written ih =>
    obtain ⟨here, later⟩ := List.forall_mem_cons.mp safe
    exact (PoolM.bind_of_ok (writeBack_of_none here)).trans (ih later fails)

theorem cached_wroteAll_of_apart {id : Nat} (apart : ∀ page ∈ pages, page.id ≠ id) :
    (p.wroteAll pages).cached[id]? = p.cached[id]? := by
  induction pages generalizing p with
  | nil => rfl
  | cons page pages ih =>
    obtain ⟨here, later⟩ := List.forall_mem_cons.mp apart
    rw [wroteAll_cons, ih later]
    simp [wrote, keep, Std.ExtTreeMap.getElem?_insert, here]

theorem cached_wroteAll_of_mem (ascending : pages.Pairwise fun a b => a.id < b.id)
    (member : page ∈ pages) : (p.wroteAll pages).cached[page.id]? = some page.clearDirty := by
  induction pages generalizing p with
  | nil => cases member
  | cons first pages ih =>
    obtain ⟨least, rest⟩ := List.pairwise_cons.mp ascending
    rw [wroteAll_cons]
    rcases List.mem_cons.mp member with rfl | later
    · rw [cached_wroteAll_of_apart fun other behind => Nat.ne_of_gt (least other behind)]
      simp [wrote, keep]
    · exact ih rest later

theorem cached_wroteAll (filed : p.Filed) (dirty : p.dirtyPages = written ++ left) (id : Nat) :
    (∃ page ∈ written, page.id = id ∧ p.cached[id]? = some page ∧
      (p.wroteAll written).cached[id]? = some page.clearDirty) ∨
    (∀ page ∈ written, page.id ≠ id) ∧ (p.wroteAll written).cached[id]? = p.cached[id]? := by
  have ascending := filed.dirtyPages_ascending
  rw [dirty] at ascending
  by_cases here : ∃ page ∈ written, page.id = id
  · obtain ⟨page, member, rfl⟩ := here
    have listed : page ∈ p.dirtyPages := dirty ▸ List.mem_append_left left member
    exact .inl ⟨page, member, rfl, (filed.mem_dirtyPages_iff.mp listed).2,
      cached_wroteAll_of_mem (List.pairwise_append.mp ascending).1 member⟩
  · have apart : ∀ page ∈ written, page.id ≠ id := fun page member same => here ⟨page, member, same⟩
    exact .inr ⟨apart, cached_wroteAll_of_apart apart⟩

theorem filed_wroteAll (filed : p.Filed) (dirty : p.dirtyPages = written ++ left) :
    (p.wroteAll written).Filed := by
  intro id page found
  rcases cached_wroteAll filed dirty id with ⟨old, -, same, -, cleared⟩ | ⟨-, kept⟩
  · rw [cleared] at found
    cases found
    exact same
  · exact filed id page (kept ▸ found)

theorem dirtyPages_wroteAll (filed : p.Filed) (dirty : p.dirtyPages = written ++ left) :
    (p.wroteAll written).dirtyPages = left := by
  have ascending := filed.dirtyPages_ascending
  rw [dirty] at ascending
  obtain ⟨-, rest, below⟩ := List.pairwise_append.mp ascending
  have after := filed_wroteAll filed dirty
  have : Std.Asymm fun a b : Page => a.id < b.id := ⟨fun _ _ => Nat.lt_asymm⟩
  -- both lists ascend, so it is enough that they have the same pages
  refine after.dirtyPages_ascending.eq_of_mem_iff rest fun page => ?_
  rw [after.mem_dirtyPages_iff]
  rcases cached_wroteAll filed dirty page.id with ⟨old, member, same, -, cleared⟩ | ⟨apart, kept⟩
  · constructor
    · rintro ⟨still, found⟩
      rw [cleared] at found
      cases found
      cases still
    · intro later
      exact absurd same (Nat.ne_of_lt (below old member page later))
  · rw [kept, ← filed.mem_dirtyPages_iff, dirty, List.mem_append]
    exact or_iff_right fun member => apart page member rfl

/-- From `p` to `q` the pages of `written` are written in their order and are clean. The first of
`left`, if there is one, is tried in vain, and these pages are dirty still. -/
structure Writes (p q : Pool) (written left : List Page) : Prop where
  disk : q.disk = { p.disk with
    medium := p.disk.medium.writeAll written
    calls := left.head?.toList.map (.unwritten ·.id) ++
      (written.map fun page => .wrote page.id page.block).reverse ++ p.disk.calls }
  stored : ∀ page ∈ written, q.disk.medium.read? page.id = some page.block
  cleared : ∀ page ∈ written, q.cached[page.id]? = some page.clearDirty
  bytes : ∀ id : Nat, q.cached[id]?.map Page.block = p.cached[id]?.map Page.block
  dirty : q.dirtyPages = left
  filed : q.Filed

theorem writes_of_wroteAll (filed : p.Filed) (dirty : p.dirtyPages = written ++ left)
    (cached : q.cached = (p.wroteAll written).cached)
    (disk : q.disk = { (p.wroteAll written).disk with
      calls := left.head?.toList.map (.unwritten ·.id) ++ (p.wroteAll written).disk.calls }) :
    Writes p q written left := by
  have ascending := filed.dirtyPages_ascending
  rw [dirty] at ascending
  obtain ⟨first, -, -⟩ := List.pairwise_append.mp ascending
  rw [disk_wroteAll] at disk
  constructor
  · simpa using disk
  · intro page member
    rw [disk]
    exact Medium.read?_writeAll_of_mem first member
  · intro page member
    rw [cached]
    exact cached_wroteAll_of_mem first member
  · intro id
    rw [cached]
    rcases cached_wroteAll filed dirty id with ⟨page, -, -, held, cleared⟩ | ⟨-, kept⟩
    · rw [held, cleared]
      rfl
    · rw [kept]
  · have after := dirtyPages_wroteAll filed dirty
    simpa only [dirtyPages, cached] using after
  · have after := filed_wroteAll filed dirty
    simpa only [Filed, cached] using after

/-- The changed pages below the first that cannot be written. -/
def flushable (p : Pool) : List Page := p.dirtyPages.takeWhile p.writable

/-- The first changed page that cannot be written, and those above it. -/
def stuck (p : Pool) : List Page := p.dirtyPages.dropWhile p.writable

theorem flushable_append_stuck (p : Pool) : p.flushable ++ p.stuck = p.dirtyPages :=
  List.takeWhile_append_dropWhile

theorem writable_iff : p.writable page = true ↔ p.disk.writeFault? page.id = none :=
  Option.isNone_iff_eq_none

theorem safe_of_flushable (member : page ∈ p.flushable) : p.disk.writeFault? page.id = none :=
  writable_iff.mp (List.mem_takeWhile_imp member)

theorem fault_of_stuck {above : List Page} (stuck : p.stuck = page :: above) :
    ∃ fault, p.disk.writeFault? page.id = some fault := by
  have some_left : 0 < (p.dirtyPages.dropWhile p.writable).length := by
    change 0 < p.stuck.length
    simp [stuck]
  have fails := List.dropWhile_get_zero_not p.writable p.dirtyPages some_left
  apply Option.ne_none_iff_exists'.mp
  intro safe
  apply fails
  have first : (p.dirtyPages.dropWhile p.writable).get ⟨0, some_left⟩ = page := by
    simp only [Pool.stuck] at stuck
    simp [stuck]
  rw [first]
  exact writable_iff.mpr safe

theorem flush_of_stuck (filed : p.Filed) {fault : Fault} {above : List Page}
    (stuck : p.stuck = page :: above) (fails : p.disk.writeFault? page.id = some fault) :
    ∃ q, flush p = (.error fault, q) ∧ Writes p q p.flushable p.stuck := by
  have dirty := p.flushable_append_stuck.symm
  refine ⟨(p.wroteAll p.flushable).missed page, ?_, writes_of_wroteAll filed dirty rfl ?_⟩
  · rw [flush_eq]
    apply PoolM.bind_of_error
    rw [dirty, stuck]
    exact forM_writeBack_error (fun page => safe_of_flushable) fails above
  · rw [stuck]
    rfl

theorem flush_of_not_stuck (filed : p.Filed) (free : p.stuck = []) :
    ∃ q, flush p = (.ok p.dirtyPages.length, q) ∧ Writes p q p.flushable p.stuck := by
  have dirty := p.flushable_append_stuck.symm
  refine ⟨(p.wroteAll p.flushable).note (.flushed p.dirtyPages.length), ?_,
    writes_of_wroteAll filed dirty rfl ?_⟩
  · have written : p.dirtyPages.forM writeBack p = (.ok (), p.wroteAll p.flushable) := by
      rw [dirty, free, List.append_nil]
      exact forM_writeBack_ok fun page => safe_of_flushable
    rw [flush_eq, PoolM.bind_of_ok written]
    rfl
  · rw [free]
    rfl

theorem Writes.writeFault?_eq (h : Writes p q written left) (id : Nat) :
    q.disk.writeFault? id = p.disk.writeFault? id := by
  rw [h.disk]
  rfl

theorem Writes.stuck_eq (h : Writes p q p.flushable p.stuck) :
    q.stuck = p.stuck ∧ q.flushable = [] := by
  have same : q.writable = p.writable := by
    funext page
    simp only [writable, h.writeFault?_eq]
  rw [stuck, flushable, h.dirty, same]
  cases first : p.stuck with
  | nil => simp
  | cons f above =>
    obtain ⟨fault, fails⟩ := fault_of_stuck first
    simp [writable, fails]

theorem clean_of_dirtyPages (filed : p.Filed) (none : p.dirtyPages = []) : p.Clean := by
  intro id page found
  cases state : page.dirty with
  | false => rfl
  | true =>
    have own := filed id page found
    have listed := filed.mem_dirtyPages_iff.mpr ⟨state, own ▸ found⟩
    rw [none] at listed
    cases listed

theorem Writes.resume (filed : p.Filed) (h : Writes p q p.flushable p.stuck) {plan : FaultPlan}
    (lifted : ∀ page ∈ p.stuck, (q.failing plan).disk.writeFault? page.id = none) :
    ∃ r, flush (q.failing plan) = (.ok p.stuck.length, r) ∧
      Writes (q.failing plan) r p.stuck [] ∧
      ∀ page ∈ p.dirtyPages, r.disk.medium.read? page.id = some page.block := by
  have dirty : (q.failing plan).dirtyPages = p.stuck := h.dirty
  have writable : ∀ page ∈ p.stuck, (q.failing plan).writable page = true :=
    fun page member => writable_iff.mpr (lifted page member)
  have free : (q.failing plan).stuck = [] := by
    rw [stuck, dirty]
    exact List.dropWhile_eq_nil_iff.mpr writable
  have all : (q.failing plan).flushable = p.stuck := by
    rw [flushable, dirty]
    exact List.takeWhile_eq_self_iff.mpr writable
  obtain ⟨r, flushed, next⟩ := flush_of_not_stuck (p := q.failing plan) h.filed free
  rw [dirty] at flushed
  rw [all, free] at next
  refine ⟨r, flushed, next, fun page member => ?_⟩
  have ascending := filed.dirtyPages_ascending
  rw [← p.flushable_append_stuck] at ascending member
  obtain ⟨-, -, below⟩ := List.pairwise_append.mp ascending
  rcases List.mem_append.mp member with early | late
  · have apart : ∀ other ∈ p.stuck, other.id ≠ page.id :=
      fun other later => Nat.ne_of_gt (below page early other later)
    rw [next.disk]
    exact Medium.read?_writeAll_of_apart apart (h.stored page early)
  · exact next.stored page late

theorem flush_writes (filed : p.Filed) :
    ∃ q, Writes p q p.flushable p.stuck ∧
      (p.stuck = [] → flush p = (.ok p.dirtyPages.length, q)) ∧
      ∀ f above, p.stuck = f :: above →
        ∃ fault, p.disk.writeFault? f.id = some fault ∧ flush p = (.error fault, q) := by
  cases first : p.stuck with
  | nil =>
    obtain ⟨q, flushed, writes⟩ := flush_of_not_stuck filed first
    rw [first] at writes
    exact ⟨q, writes, fun _ => flushed, nofun⟩
  | cons f above =>
    obtain ⟨fault, fails⟩ := fault_of_stuck first
    obtain ⟨q, flushed, writes⟩ := flush_of_stuck filed first fails
    rw [first] at writes
    refine ⟨q, writes, nofun, fun f above same => ?_⟩
    cases same
    exact ⟨fault, fails, flushed⟩

theorem writes_of_flush (filed : p.Filed) {answer : Except Fault Nat}
    (flushed : flush p = (answer, q)) : Writes p q p.flushable p.stuck := by
  obtain ⟨r, writes, answered, failed⟩ := flush_writes filed
  cases first : p.stuck with
  | nil =>
    cases (answered first).symm.trans flushed
    exact first ▸ writes
  | cons f above =>
    obtain ⟨fault, -, stopped⟩ := failed f above first
    cases stopped.symm.trans flushed
    exact first ▸ writes

theorem flush_block_of_fault (coherent : p.Coherent) {answer : Except Fault Nat}
    (flushed : flush p = (answer, q)) {id : Nat} {fault : Fault}
    (fails : p.disk.writeFault? id = some fault) :
    q.disk.medium.block id = p.disk.medium.block id := by
  rw [(writes_of_flush coherent.filed flushed).disk]
  apply Medium.block_writeAll_of_apart coherent.whole
  rintro page member rfl
  rw [safe_of_flushable member] at fails
  cases fails

theorem mem_flushable (filed : p.Filed) (member : page ∈ p.dirtyPages)
    (safe : ∀ other ≤ page.id, p.disk.writeFault? other = none) : page ∈ p.flushable := by
  have ascending := filed.dirtyPages_ascending
  rw [← p.flushable_append_stuck] at ascending member
  rcases List.mem_append.mp member with early | late
  · exact early
  · -- the first page that is stuck fails, and is not above this one
    cases first : p.stuck with
    | nil =>
      rw [first] at late
      cases late
    | cons f above =>
      obtain ⟨fault, fails⟩ := fault_of_stuck first
      rw [first] at ascending late
      obtain ⟨least, -⟩ := List.pairwise_cons.mp (List.pairwise_append.mp ascending).2.1
      have below : f.id ≤ page.id := by
        rcases List.mem_cons.mp late with rfl | behind
        · exact Nat.le_refl _
        · exact Nat.le_of_lt (least page behind)
      rw [safe f.id below] at fails
      cases fails

theorem flush_block_of_safe (coherent : p.Coherent) {answer : Except Fault Nat}
    (flushed : flush p = (answer, q)) {id : Nat}
    (safe : ∀ other ≤ id, p.disk.writeFault? other = none) :
    q.disk.medium.block id = p.view id := by
  have writes := writes_of_flush coherent.filed flushed
  by_cases changed : ∃ page ∈ p.dirtyPages, page.id = id
  · obtain ⟨page, member, rfl⟩ := changed
    have held := (coherent.filed.mem_dirtyPages_iff.mp member).2
    rw [Medium.block, writes.stored page (mem_flushable coherent.filed member safe), view, held]
    rfl
  · have apart : ∀ page ∈ p.flushable, page.id ≠ id := by
      intro page member same
      have listed := List.mem_append_left p.stuck member
      rw [p.flushable_append_stuck] at listed
      exact changed ⟨page, listed, same⟩
    rw [writes.disk, view]
    refine (Medium.block_writeAll_of_apart coherent.whole apart).trans ?_
    cases found : p.cached[id]? with
    | none => rfl
    | some page =>
      refine (coherent.copy id page found ?_).symm
      rw [← Bool.not_eq_true]
      intro dirty
      exact changed ⟨page, mem_dirtyPages.mpr ⟨dirty, id, found⟩, coherent.filed id page found⟩

/-- A flush tries the changed pages in ascending order up to the first that fails. What is below
that page is stored and clean, and all else stays as it was; a close fails likewise and leaves the
disk open. Once the pages that are left can be written, the next flush writes these and no others, and a
third has nothing to do. -/
theorem flush_resumes (filed : p.Filed) :
    (p.dirtyPages.Pairwise (fun a b => a.id < b.id) ∧
      ∀ page, page ∈ p.dirtyPages ↔ page.dirty = true ∧ p.cached[page.id]? = some page) ∧
    ∃ q, Writes p q p.flushable p.stuck ∧
      ((∀ page ∈ p.dirtyPages, p.disk.writeFault? page.id = none) →
        flush p = (.ok p.dirtyPages.length, q) ∧ q.Clean) ∧
      (∀ f above, p.stuck = f :: above → ∃ fault, p.disk.writeFault? f.id = some fault ∧
        flush p = (.error fault, q) ∧ close p = (.error fault, q) ∧
        ∃ s, close q = (.error fault, s) ∧ Writes q s [] p.stuck) ∧
      ∀ plan : FaultPlan, (∀ page ∈ p.stuck, (q.failing plan).disk.writeFault? page.id = none) →
        ∃ r, flush (q.failing plan) = (.ok p.stuck.length, r) ∧
          Writes (q.failing plan) r p.stuck [] ∧ r.Clean ∧
          (∀ page ∈ p.dirtyPages, r.disk.medium.read? page.id = some page.block) ∧
          ∀ plan : FaultPlan,
            flush (r.failing plan) = (.ok 0, (r.failing plan).note (.flushed 0)) := by
  obtain ⟨q, writes, answered, failed⟩ := flush_writes filed
  refine ⟨⟨filed.dirtyPages_ascending, fun page => filed.mem_dirtyPages_iff⟩, q, writes, ?_, ?_, ?_⟩
  · intro safe
    have free : p.stuck = [] :=
      List.dropWhile_eq_nil_iff.mpr fun page member => writable_iff.mpr (safe page member)
    exact ⟨answered free, clean_of_dirtyPages writes.filed (writes.dirty.trans free)⟩
  · intro f above first
    obtain ⟨fault, fails, flushed⟩ := failed f above first
    obtain ⟨stuck, none⟩ := writes.stuck_eq
    -- tried once more, the same page fails and nothing is below it
    have fails' : q.disk.writeFault? f.id = some fault := (writes.writeFault?_eq f.id).trans fails
    obtain ⟨s, again, missed⟩ := flush_of_stuck writes.filed (stuck.trans first) fails'
    rw [stuck, none] at missed
    exact ⟨fault, fails, flushed, PoolM.bind_of_error flushed, s, PoolM.bind_of_error again, missed⟩
  · intro plan lifted
    obtain ⟨r, flushed, next, stored⟩ := writes.resume filed lifted
    refine ⟨r, flushed, next, clean_of_dirtyPages next.filed next.dirty, stored, fun plan => ?_⟩
    have none : (r.failing plan).dirtyPages = [] := next.dirty
    rw [flush_eq, none]
    rfl

/-- Of four pages three are changed, and the second of these cannot be written at first. -/
theorem flush_resumes_behind_bad_write : ∃ p q r : Pool, p.Filed ∧ p.cached.size = 4 ∧
    flush p = (.error (.io (.badWrite 5)), q) ∧ q.dirtyPages.map Page.id = [5, 9] ∧
    flush (q.failing {}) = (.ok 2, r) ∧ r.Clean := by
  let page : Nat → Bool → Page := fun id dirty => ⟨id, dirty, .zero⟩
  let keep : Pool → Page → Pool := fun p page => p.keep page.id page
  let p : Pool := Pool.failing
    (keep (keep (keep (keep (.over .inMemory {}) (page 9 true)) (page 2 true)) (page 7 false))
      (page 5 true)) { writes := [5] }
  have blank : (Pool.over .inMemory {}).Filed := fun id page found => by simp [Pool.over] at found
  have filed : p.Filed := blank.keep.keep.keep.keep
  have ids : p.stuck.map Page.id = [5, 9] := by decide +kernel
  obtain ⟨f, above, first, five, -⟩ := List.map_eq_cons_iff.mp ids
  have count : p.stuck.length = 2 := by rw [← List.length_map Page.id, ids]; rfl
  obtain ⟨-, q, writes, -, failed, resumed⟩ := flush_resumes filed
  obtain ⟨fault, fails, flushed, -⟩ := failed f above first
  have bad : fault = .io (.badWrite 5) := by
    rw [five] at fails
    exact (Option.some.inj fails).symm
  have lifted : ∀ page ∈ p.stuck, (q.failing {}).disk.writeFault? page.id = none := by
    intro page member
    rw [Pool.failing, writes.disk]
    rfl
  obtain ⟨r, again, -, clean, -⟩ := resumed {} lifted
  rw [bad] at flushed
  rw [count] at again
  exact ⟨p, q, r, filed, by decide +kernel, flushed, writes.dirty ▸ ids, again, clean⟩

end Pool

end Gazetteer
