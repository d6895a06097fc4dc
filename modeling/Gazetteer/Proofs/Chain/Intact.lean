import Gazetteer.Proofs.Chain.Records
import Gazetteer.Proofs.Pool.Flush

/-! Pools that no call spoils: whatever a record store does to a pool, and whichever of its disk
calls fail, its pages stay sound and its clean pages stay copies of the medium. -/
namespace Gazetteer

def Medium.IsEmpty : Medium → Prop
  | .memory pages => pages = ∅
  | .file f => f.length = 0

theorem Medium.IsEmpty.whole {m : Medium} (empty : m.IsEmpty) : m.Whole := by
  cases m with
  | memory pages => trivial
  | file f =>
    change f.length = 0 at empty
    change pageSize ∣ f.length
    rw [empty]
    exact Nat.dvd_zero _

theorem Medium.IsEmpty.block_eq {m : Medium} (empty : m.IsEmpty) (page : Nat) :
    m.block page = .zero := by
  cases m with
  | memory pages =>
    change pages = ∅ at empty
    rw [empty]
    exact Medium.block_empty_memory page
  | file f =>
    change f.length = 0 at empty
    have past : ¬ (page + 1) * pageSize ≤ f.length := by
      rw [empty, pageSize]
      omega
    simp [Medium.block, Medium.read?, PageFile.read?, past]

namespace Pool

/-- The pool from the moment on that its disk calls fail as planned. -/
def failing (p : Pool) (plan : FaultPlan) : Pool := { p with disk := { p.disk with plan } }

@[simp] theorem view_failing (p : Pool) (plan : FaultPlan) : (p.failing plan).view = p.view := rfl

structure Intact (p : Pool) : Prop where
  coherent : p.Coherent
  sound : ∀ id, (p.view id).Sound

variable {p q : Pool}

theorem view_over {disk : Disk} (empty : disk.medium.IsEmpty) (settings : BufferSettings)
    (id : Nat) : (Pool.over disk settings).view id = .zero := by
  rw [view_of_clean (coherent_over empty.whole settings)]
  · exact empty.block_eq id
  · intro other page found
    simp [Pool.over] at found

theorem intact_over {disk : Disk} (empty : disk.medium.IsEmpty) (settings : BufferSettings) :
    (Pool.over disk settings).Intact := by
  refine ⟨coherent_over empty.whole settings, ?_⟩
  intro id
  rw [view_over empty]
  exact Block.Sound.of_blank Block.isFormatted_zero

theorem Intact.failing (h : p.Intact) (plan : FaultPlan) : (p.failing plan).Intact :=
  ⟨⟨h.coherent.whole, h.coherent.filed, h.coherent.copy⟩, h.sound⟩

theorem Intact.of_loads (h : p.Intact) (loaded : Loads p q) : q.Intact := by
  refine ⟨loaded.coherent h.coherent, ?_⟩
  rw [loaded.view_eq]
  exact h.sound

theorem Intact.flush {answer : Except Fault Nat} (h : p.Intact)
    (flushed : Pool.flush p = (answer, q)) :
    q.Intact ∧ q.view = p.view ∧ ∀ n, answer = .ok n → q.Clean := by
  obtain ⟨coherent, same, clean⟩ := flush_spec h.coherent flushed
  refine ⟨⟨coherent, ?_⟩, same, clean⟩
  rw [same]
  exact h.sound

theorem Intact.dropAll {answer : Except Fault Unit} (h : p.Intact) (clean : p.Clean)
    (dropped : Pool.dropAll p = (answer, q)) : q.Intact ∧ q.view = p.view := by
  obtain ⟨coherent, same⟩ := dropAll_clean h.coherent clean dropped
  refine ⟨⟨coherent, ?_⟩, same⟩
  rw [same]
  exact h.sound

/-- A pool between two calls, and whether the last of them was a flush that answered. -/
structure Usage where
  pool : Pool
  flushed : Bool := false

namespace Usage

def flush (u : Usage) (plan : FaultPlan) : Usage :=
  match Pool.flush (u.pool.failing plan) with
  | (.ok _, pool) => { pool, flushed := true }
  | (.error _, pool) => { pool }

def drop (u : Usage) : Usage := { pool := (Pool.dropAll u.pool).2 }

/-- Nothing is wrong with the pages, and after a flush that answered nothing is left to write. -/
structure Sound (u : Usage) : Prop where
  intact : u.pool.Intact
  clean : u.flushed = true → u.pool.Clean

variable {u : Usage}

theorem Sound.of_intact {pool : Pool} (h : pool.Intact) : Sound { pool } where
  intact := h
  clean := by
    intro flushed
    cases flushed

theorem Sound.flush (h : u.Sound) (plan : FaultPlan) :
    (u.flush plan).Sound ∧ (u.flush plan).pool.view = u.pool.view := by
  unfold Usage.flush
  split
  · next n pool call =>
    obtain ⟨intact, same, clean⟩ := (h.intact.failing plan).flush call
    exact ⟨⟨intact, fun _ => clean n rfl⟩, same⟩
  · next fault pool call =>
    obtain ⟨intact, same, -⟩ := (h.intact.failing plan).flush call
    exact ⟨.of_intact intact, same⟩

theorem Sound.drop (h : u.Sound) (flushed : u.flushed = true) :
    u.drop.Sound ∧ u.drop.pool.view = u.pool.view := by
  obtain ⟨intact, same⟩ := h.intact.dropAll (h.clean flushed) rfl
  exact ⟨.of_intact intact, same⟩

end Usage

end Pool

namespace Chain

variable {p q : Pool} {home maxPages : Nat} {value : List UInt8}

theorem append_intact {place : RecordId} (h : p.Intact)
    (answered : append home value maxPages p = (.ok place, q)) :
    q.Intact ∧ Appends p.view q.view home value place := by
  have appends := append_appends h.coherent.filed h.sound answered
  obtain ⟨-, -, growth, -, updated⟩ := append_ok h.coherent.filed answered
  exact ⟨⟨updated.coherent h.coherent, appends.sound⟩, appends⟩

theorem append_failed {fault : Fault} (h : p.Intact)
    (failed : append home value maxPages p = (.error fault, q)) : q.Intact ∧ q.view = p.view := by
  have loaded := append_error failed
  exact ⟨h.of_loads loaded, loaded.view_eq⟩

/-- An open disk, and no page with more than `n` bytes of records. -/
structure Roomy (p : Pool) (n : Nat) : Prop where
  intact : p.Intact
  isOpen : p.disk.isOpen = true
  light : ∀ id, Block.weights (p.view id).records ≤ n

theorem roomy_over {disk : Disk} (empty : disk.medium.IsEmpty) (isOpen : disk.isOpen = true)
    (settings : BufferSettings) : Roomy (.over disk settings) 0 := by
  refine ⟨Pool.intact_over empty settings, isOpen, ?_⟩
  intro id
  rw [Pool.view_over empty, Block.records_of_blank Block.isFormatted_zero]
  exact Nat.le_refl 0

theorem Roomy.readable {n : Nat} (h : Roomy p n) : (p.failing {}).Readable := ⟨h.isOpen, rfl⟩

/-- As long as one page has room for all records, an append answers and the chain does not grow. -/
theorem Roomy.append {n : Nat} (h : Roomy p n)
    (room : n + Block.weight value ≤ pageSize - Block.headerSize) (home maxPages : Nat) :
    ∃ slot q, Chain.append home value maxPages (p.failing {}) = (.ok ⟨home, slot⟩, q) ∧
      Roomy q (n + Block.weight value) ∧ Appends p.view q.view home value ⟨home, slot⟩ := by
  have fits : value.length ≤ Block.maxRecord := by
    simp only [Block.weight, Block.maxRecord] at room ⊢
    omega
  have intact := h.intact.failing {}
  obtain ⟨page, r, fetched⟩ := Pool.fetch_answers h.readable home
  have accepts : page.block.accepts value.length = true := by
    have light := h.light home
    rw [((Pool.fetch_spec fetched).2 page rfl).2]
    exact (h.intact.sound home).accepts (by omega)
  obtain ⟨q, appended⟩ := append_accepted intact.coherent.filed fits fetched accepts maxPages
  obtain ⟨after, appends⟩ := append_intact intact appended
  obtain ⟨-, -, growth, -, updated⟩ := append_ok intact.coherent.filed appended
  refine ⟨_, q, appended, ⟨after, updated.isOpen.trans h.isOpen, ?_⟩, appends⟩
  intro id
  have light := h.light id
  rw [appends.records]
  split
  · rw [Block.weights_concat]
    exact Nat.add_le_add_right light _
  · exact light.trans (Nat.le_add_right _ _)

end Chain

end Gazetteer
