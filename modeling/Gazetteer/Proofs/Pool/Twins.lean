import Gazetteer.Proofs.Pool.Agreement

/-! Two pools that differ in nothing but the kind of their medium: one memory, one file. A gap
between the pages of a file holds a block of zeros, where a memory holds nothing; the pools above
cannot tell that, so all that is done to both has the same answers and leaves them twins. -/
namespace Gazetteer

namespace Disk

structure Calm (d : Disk) : Prop where
  whole : d.medium.Whole
  isOpen : d.isOpen = true
  reads : d.plan.reads = []
  writes : d.plan.writes = []

structure Twins (d e : Disk) : Prop where
  left : d.Calm
  right : e.Calm
  block : ∀ id, d.medium.block id = e.medium.block id

variable {d e : Disk}

theorem Calm.read (h : d.Calm) (page : Nat) :
    ∃ found calls, d.read page = (.ok found, { d with calls }) ∧
      found.getD .zero = d.medium.block page := by
  have safe : d.readFault? page = none := by simp [readFault?, h.reads, h.isOpen]
  cases there : d.medium.read? page with
  | none =>
    refine ⟨none, .absent page :: d.calls, ?_, by simp only [Medium.block, there]⟩
    simp only [Disk.read, safe, there]
  | some block =>
    refine ⟨some block, .found page :: d.calls, ?_, by simp only [Medium.block, there]⟩
    simp only [Disk.read, safe, there]

theorem Calm.safe (h : d.Calm) (page : Nat) : d.writeFault? page = none := by
  simp [writeFault?, h.writes, h.isOpen]

theorem Calm.write (h : d.Calm) (page : Nat) (block : Block) :
    ∃ calls, d.write page block =
      (.ok (), { d with medium := d.medium.write page block, calls }) := by
  refine ⟨.wrote page block :: d.calls, ?_⟩
  simp only [Disk.write, h.safe]

theorem Twins.called (h : d.Twins e) (calls others : List DiskCall) :
    Twins { d with calls } { e with calls := others } :=
  ⟨⟨h.left.whole, h.left.isOpen, h.left.reads, h.left.writes⟩,
    ⟨h.right.whole, h.right.isOpen, h.right.reads, h.right.writes⟩, h.block⟩

theorem Twins.written (h : d.Twins e) (page : Nat) (block : Block) :
    Twins { d with medium := d.medium.write page block }
      { e with medium := e.medium.write page block } where
  left := ⟨Medium.whole_write h.left.whole _ _, h.left.isOpen, h.left.reads, h.left.writes⟩
  right := ⟨Medium.whole_write h.right.whole _ _, h.right.isOpen, h.right.reads, h.right.writes⟩
  block id := by
    rw [Medium.block_write h.left.whole, Medium.block_write h.right.whole, h.block]

end Disk

namespace Pool

def withDisk (p : Pool) (disk : Disk) : Pool := { p with disk }

/-- The same pages are kept, over disks with the same blocks. -/
inductive Twins : Pool → Pool → Prop where
  | on (p : Pool) {d e : Disk} (disks : d.Twins e) : Twins (p.withDisk d) (p.withDisk e)

variable {p q : Pool}

theorem warnOver_withDisk (p : Pool) (disk : Disk) (count : Nat) :
    (p.withDisk disk).warnOver count = (p.warnOver count).withDisk disk := by
  obtain ⟨own, cached, capacityHint, diskReads, capacityWarned, journal⟩ := p
  cases capacityHint with
  | none => rfl
  | some hint =>
    by_cases above : capacityWarned = false ∧ hint < count
    · simp [withDisk, Pool.warnOver, Pool.note, above]
    · simp [withDisk, Pool.warnOver, above]

theorem Twins.view_eq (h : Twins p q) : p.view = q.view := by
  cases h with
  | on p disks =>
    funext id
    simp only [view, withDisk]
    cases p.cached[id]? with
    | none => exact disks.block id
    | some page => rfl

theorem Twins.warnOver (h : Twins p q) (count : Nat) :
    Twins (p.warnOver count) (q.warnOver count) := by
  cases h with
  | on p disks =>
    rw [warnOver_withDisk, warnOver_withDisk]
    exact .on _ disks

theorem Twins.keep (h : Twins p q) (id : Nat) (page : Page) :
    Twins (p.keep id page) (q.keep id page) := by
  cases h with
  | on p disks => exact .on (p.keep id page) disks

theorem Twins.note (h : Twins p q) (e : Event) : Twins (p.note e) (q.note e) := by
  cases h with
  | on p disks => exact .on (p.note e) disks

theorem Twins.load (h : Twins p q) (id : Nat) :
    ∃ page r s, page.id = id ∧ p.load id = (.ok page, r) ∧ q.load id = (.ok page, s) ∧
      Twins r s := by
  cases h with
  | @on p d e disks =>
    obtain ⟨found, calls, read, block⟩ := disks.left.read id
    obtain ⟨found', calls', read', block'⟩ := disks.right.read id
    rw [disks.block, ← block'] at block
    have asked := Twins.on { p.note (.cacheMiss id) with diskReads := p.diskReads + 1 }
      (disks.called calls calls')
    have kept := (asked.warnOver (p.cached.size + 1)).keep id (.ofBlock id (found'.getD .zero))
    refine ⟨.ofBlock id (found'.getD .zero), _, _, rfl, ?_, ?_, kept⟩
    · simp only [Pool.load, withDisk, read, block]
      rfl
    · simp only [Pool.load, withDisk, read']
      rfl

theorem simulation_twins : Simulation True fun p q => Twins p q ∧ p.Filed where
  fetch := by
    rintro id p q ⟨twins, filed⟩
    cases found : p.cached[id]? with
    | some page =>
      have found' : q.cached[id]? = some page := by
        cases twins with
        | on p disks => exact found
      rw [fetch_of_cached found, fetch_of_cached found']
      have own := filed id page found
      exact .answered ⟨own, own, rfl⟩ ⟨twins, filed⟩
    | none =>
      have absent : q.cached[id]? = none := by
        cases twins with
        | on p disks => exact found
      obtain ⟨page, r, s, own, left, right, after⟩ := twins.load id
      rw [fetch_of_absent found, fetch_of_absent absent, left, right]
      have loaded := (load_spec found left).1
      exact .answered ⟨own, own, rfl⟩ ⟨after, loaded.filed filed⟩
  keep := by
    rintro p q page _ ⟨twins, filed⟩
    exact ⟨twins.keep page.id page, filed.keep⟩
  note := by
    rintro p q e ⟨twins, filed⟩
    exact ⟨twins.note e, filed⟩
  count := by
    rintro p q ⟨twins, filed⟩
    have same : p.cached.size = q.cached.size := by
      cases twins with
      | on p disks => rfl
    refine ⟨same ▸ twins.warnOver p.cached.size, ?_⟩
    simpa only [Filed, cached_warnOver] using filed

theorem Twins.dirtyPages (h : Twins p q) : p.dirtyPages = q.dirtyPages := by
  cases h with
  | on p disks => rfl

theorem writeBack_twins (page : Page) :
    PoolM.Agree True Twins Eq (writeBack page) (writeBack page) := by
  intro p q twins
  cases twins with
  | @on p d e disks =>
    obtain ⟨calls, written⟩ := disks.left.write page.id page.block
    obtain ⟨calls', written'⟩ := disks.right.write page.id page.block
    simp only [writeBack, withDisk, written, written']
    have after := (disks.written page.id page.block).called calls calls'
    exact .answered rfl ((Twins.on p after).keep page.id page.clearDirty)

theorem flush_twins : PoolM.Agree True Twins Eq flush flush := by
  intro p q twins
  have all : ∀ pages : List Page,
      PoolM.Agree True Twins (fun _ _ => True) (pages.forM writeBack) (pages.forM writeBack) := by
    intro pages
    induction pages with
    | nil => exact .pure trivial
    | cons page pages ih => exact .bind (writeBack_twins page) fun _ _ _ => ih
  rw [flush_eq, flush_eq, ← twins.dirtyPages]
  refine PoolM.Agree.bind (all p.dirtyPages) (fun _ _ _ => ?_) p q twins
  exact .bind (.modify fun p q twins => twins.note _) fun _ _ _ => .pure rfl

theorem writeBack_calm (calm : p.disk.Calm) (page : Page) :
    ∃ q, writeBack page p = (.ok (), q) ∧ q.disk.Calm ∧ q.disk.plan = p.disk.plan :=
  ⟨p.wrote page, writeBack_of_none (calm.safe page.id),
    ⟨Medium.whole_write calm.whole _ _, calm.isOpen, calm.reads, calm.writes⟩, rfl⟩

theorem flush_calm (calm : p.disk.Calm) :
    ∃ q, flush p = (.ok p.dirtyPages.length, q) ∧ q.disk.Calm ∧ q.disk.plan = p.disk.plan := by
  have all : ∀ pages : List Page, ∀ p : Pool, p.disk.Calm →
      ∃ q, pages.forM writeBack p = (.ok (), q) ∧ q.disk.Calm ∧ q.disk.plan = p.disk.plan := by
    intro pages
    induction pages with
    | nil => exact fun p calm => ⟨p, rfl, calm, rfl⟩
    | cons page pages ih =>
      intro p calm
      obtain ⟨r, first, calm, plan⟩ := writeBack_calm calm page
      obtain ⟨q, later, calm, same⟩ := ih r calm
      exact ⟨q, (PoolM.bind_of_ok first).trans later, calm, same.trans plan⟩
  obtain ⟨q, written, calm, plan⟩ := all p.dirtyPages p calm
  refine ⟨q.note (.flushed p.dirtyPages.length), ?_, calm, plan⟩
  rw [flush_eq, PoolM.bind_of_ok written]
  rfl

theorem close_calm (calm : p.disk.Calm) (planned : p.disk.plan.close = false) :
    ∃ q, close p = (.ok (), q) := by
  obtain ⟨q, flushed, -, plan⟩ := flush_calm calm
  have shut : q.disk.close.1 = .ok () := by
    rw [Disk.close, plan, planned]
    rfl
  refine ⟨{ q with disk := q.disk.close.2 }, ?_⟩
  rw [close, PoolM.bind_of_ok flushed]
  exact Prod.ext shut rfl

theorem dropAll_twins : PoolM.Agree True Twins Eq dropAll dropAll := by
  intro p q twins
  cases twins with
  | on p disks =>
    have dropped : Twins _ _ :=
      .on { p.note (.dropped p.cached.size) with cached := ∅, capacityWarned := false } disks
    exact .answered rfl dropped

end Pool

end Gazetteer
