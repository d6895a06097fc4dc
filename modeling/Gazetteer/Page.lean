import Gazetteer.Fault
import Gazetteer.Page.Slotted

/-! A page: a block with its place in the store, and whether it was changed since it was last
written there. -/
namespace Gazetteer

structure Page where
  id : Nat
  dirty : Bool
  block : Block
  deriving DecidableEq

namespace Page

def ofBlock (id : Nat) (block : Block) : Page := ⟨id, false, block⟩

def blank (id : Nat) : Page := ofBlock id .zero

def markDirty (p : Page) : Page := { p with dirty := true }

def clearDirty (p : Page) : Page := { p with dirty := false }

def format (p : Page) : Page := { p with dirty := true, block := p.block.format }

def push (p : Page) (value : List UInt8) : Page :=
  { p with dirty := true, block := p.block.push value }

def append? (p : Page) (value : List UInt8) : Option (Nat × Page) :=
  (p.block.append? value).map fun (slot, block) => (slot, { p with dirty := true, block })

def setLink (p : Page) : Option Nat → Except Fault Page
  | none => .ok { p with dirty := true, block := p.block.unlink }
  | some target =>
    if target < linkLimit then .ok { p with dirty := true, block := p.block.linkTo target }
    else .error (.unlinkablePage target)

/-- Bytes written past the layout, without a note that the page was changed. -/
def poke (p : Page) (offset : Nat) (bytes : List UInt8) : Page :=
  { p with block := p.block.overwrite offset bytes }

def describe (p : Page) : String :=
  "Page \x7b id: " ++ toString p.id ++ ", dirty: " ++ toString p.dirty ++ " \x7d"

end Page

end Gazetteer
