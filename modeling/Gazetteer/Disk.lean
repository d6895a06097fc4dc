import Gazetteer.Disk.Medium
import Gazetteer.Fault

/-! Reading and writing whole pages of a medium. Any call can be made to fail, which leaves the
medium as it was; every call is noted together with its outcome. Page ids are taken below `2 ^ 52`, as
in a page file, and are not compared with that bound. -/
namespace Gazetteer

inductive DiskCall where
  | found (page : Nat)
  | absent (page : Nat)
  | unread (page : Nat)
  | wrote (page : Nat) (block : Block)
  | unwritten (page : Nat)
  | close

structure FaultPlan where
  reads : List Nat := []
  writes : List Nat := []
  close : Bool := false
  deriving DecidableEq, Repr

/-- A medium in use. `calls` has the youngest call first. -/
structure Disk where
  medium : Medium
  isOpen : Bool := true
  plan : FaultPlan := {}
  calls : List DiskCall := []

inductive FilePath where
  | file (content : List UInt8)
  | inMissingFolder
  | folder

namespace Disk

def inMemory : Disk := { medium := .memory ∅ }

/-- A page file is created when there is none, but never the folder that it is in. -/
def openFile : FilePath → Except Fault Disk
  | .file content => .ok { medium := .file (.ofBytes content) }
  | .inMissingFolder => .error (.io .noSuchPath)
  | .folder => .error (.io .isFolder)

def reopened (d : Disk) : Disk := { d with medium := d.medium.reopened, isOpen := true }

def resizeFile (d : Disk) (length : Nat) : Disk :=
  match d.medium with
  | .memory _ => d
  | .file f => { d with medium := .file (f.resize length) }

/-- Why a read of this page fails now. A failure that was planned comes before a closed disk. -/
def readFault? (d : Disk) (page : Nat) : Option Fault :=
  if page ∈ d.plan.reads then some (.io (.badRead page))
  else if d.isOpen then none else some .closed

def writeFault? (d : Disk) (page : Nat) : Option Fault :=
  if page ∈ d.plan.writes then some (.io (.badWrite page))
  else if d.isOpen then none else some .closed

def read (d : Disk) (page : Nat) : Except Fault (Option Block) × Disk :=
  match d.readFault? page with
  | some fault => (.error fault, { d with calls := .unread page :: d.calls })
  | none =>
    match d.medium.read? page with
    | some block => (.ok (some block), { d with calls := .found page :: d.calls })
    | none => (.ok none, { d with calls := .absent page :: d.calls })

def write (d : Disk) (page : Nat) (block : Block) : Except Fault Unit × Disk :=
  match d.writeFault? page with
  | some fault => (.error fault, { d with calls := .unwritten page :: d.calls })
  | none =>
    (.ok (), { d with medium := d.medium.write page block, calls := .wrote page block :: d.calls })

/-- A closed disk can be closed again. -/
def close (d : Disk) : Except Fault Unit × Disk :=
  if d.plan.close then (.error (.io .badClose), { d with calls := .close :: d.calls })
  else (.ok (), { d with isOpen := false, calls := .close :: d.calls })

end Disk

end Gazetteer
