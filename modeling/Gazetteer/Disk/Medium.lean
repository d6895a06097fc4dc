import Gazetteer.Disk.PageFile

/-! Where pages are kept. Memory holds the pages that were written and no others; a page file
holds every page up to its end. -/
namespace Gazetteer

inductive Medium where
  | memory (pages : Blocks)
  | file (file : PageFile)

namespace Medium

def read? : Medium → Nat → Option Block
  | .memory pages, page => pages[page]?
  | .file f, page => f.read? page

def write : Medium → Nat → Block → Medium
  | .memory pages, page, block => .memory (pages.insert page block)
  | .file f, page, block => .file (f.write page block)

/-- What is left when the medium is opened anew: nothing of a memory, all of a file. -/
def reopened : Medium → Medium
  | .memory _ => .memory ∅
  | .file f => .file f

def count : Medium → Nat
  | .memory pages => pages.size
  | .file f => f.length / pageSize

@[simp] theorem read?_write_self (m : Medium) (page : Nat) (block : Block) :
    (m.write page block).read? page = some block := by
  cases m with
  | memory pages => simp [read?, write]
  | file f => exact f.read?_write_self page block

end Medium

end Gazetteer
