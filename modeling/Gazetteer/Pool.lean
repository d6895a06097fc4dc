import Gazetteer.Disk
import Gazetteer.Event
import Gazetteer.Page
import Gazetteer.Settings

/-! Pages kept in memory between the records and the disk. A page stays from its first use until
all pages are dropped, and changes are made to the page that is kept, so they are seen by every
later use. Nothing is written but by a flush.

An operation takes the pool from one state to the next and either answers or fails; what it did
before it failed stays done. -/
namespace Gazetteer

/-- `cached` holds each page under its id, and `journal` has the youngest event first. -/
structure Pool where
  disk : Disk
  cached : Std.ExtTreeMap Nat Page := ∅
  capacityHint : Option Nat := none
  diskReads : Nat := 0
  capacityWarned : Bool := false
  journal : List Event := []

abbrev PoolM (α : Type) := ExceptT Fault (StateM Pool) α

namespace Pool

def «over» (disk : Disk) (settings : BufferSettings) : Pool :=
  { disk, capacityHint := settings.capacityHint.map UInt64.toNat }

def reopened (p : Pool) : Pool :=
  { disk := p.disk.reopened, capacityHint := p.capacityHint, journal := p.journal }

/-- What a page holds as far as the pool can tell: the kept page, else the disk, else zeros. -/
def view (p : Pool) (id : Nat) : Block :=
  match p.cached[id]? with
  | some page => page.block
  | none => (p.disk.medium.read? id).getD .zero

def note (p : Pool) (e : Event) : Pool := { p with journal := e :: p.journal }

def keep (p : Pool) (id : Nat) (page : Page) : Pool :=
  { p with cached := p.cached.insert id page }

/-- Too many pages are reported once, until all of them are dropped. -/
def warnOver (p : Pool) (count : Nat) : Pool :=
  match p.capacityHint with
  | none => p
  | some hint =>
    if p.capacityWarned = false ∧ hint < count then
      { p.note (.overCapacity count hint) with capacityWarned := true }
    else p

/-- A page that is not kept is read, and is blank when it was never written. A failed read keeps
nothing. -/
def load (p : Pool) (id : Nat) : Except Fault Page × Pool :=
  let (answer, disk) := p.disk.read id
  let asked : Pool := { p.note (.cacheMiss id) with disk, diskReads := p.diskReads + 1 }
  match answer with
  | .error fault => (.error fault, asked)
  | .ok found =>
    let page := Page.ofBlock id (found.getD .zero)
    (.ok page, (asked.warnOver (asked.cached.size + 1)).keep id page)

def fetch (id : Nat) : PoolM Page := fun p =>
  match p.cached[id]? with
  | some page => (.ok page, p)
  | none => p.load id

def format (id : Nat) : PoolM Unit := do
  let page ← fetch id
  modify fun p => (p.keep id page.format).note (.formatted id)

/-- A page of the caller's own in place of the one that is kept. -/
def putPage (page : Page) : PoolM Unit :=
  modify fun p =>
    let kept := p.keep page.id page.markDirty
    kept.warnOver kept.cached.size

/-- Pages changed since they were last written, by ascending id. -/
def dirtyPages (p : Pool) : List Page :=
  (p.cached.toList.map Prod.snd).filter Page.dirty

def writeBack (page : Page) : PoolM Unit := fun p =>
  match p.disk.write page.id page.block with
  | (.error fault, disk) => (.error fault, { p with disk })
  | (.ok (), disk) => (.ok (), { p with disk }.keep page.id page.clearDirty)

/-- Every changed page written, in ascending order up to the first failure. Answers how many there
were. -/
def flush : PoolM Nat := do
  let dirty := (← get).dirtyPages
  dirty.forM writeBack
  modify (·.note (.flushed dirty.length))
  return dirty.length

def dropAll : PoolM Unit :=
  modify fun p =>
    { p.note (.dropped p.cached.size) with cached := ∅, capacityWarned := false }

/-- The disk is closed only if all changed pages could be written. -/
def close : PoolM Unit := do
  let _ ← flush
  fun p =>
    let (answer, disk) := p.disk.close
    (answer, { p with disk })

theorem fetch_of_cached {p : Pool} {id : Nat} {page : Page} (h : p.cached[id]? = some page) :
    fetch id p = (.ok page, p) := by
  rw [fetch, h]

theorem fetch_of_absent {p : Pool} {id : Nat} (h : p.cached[id]? = none) :
    fetch id p = p.load id := by
  rw [fetch, h]

@[simp] theorem cached_warnOver (p : Pool) (count : Nat) :
    (p.warnOver count).cached = p.cached := by
  unfold warnOver
  split
  · rfl
  · split <;> rfl

theorem view_keep (p : Pool) (id : Nat) (page : Page) (other : Nat) :
    (p.keep id page).view other = if id = other then page.block else p.view other := by
  simp only [view, keep, Std.ExtTreeMap.getElem?_insert, Nat.compare_eq_eq]
  by_cases same : id = other
  · simp [same]
  · simp [same]

end Pool

end Gazetteer
