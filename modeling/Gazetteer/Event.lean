/-! What the store tells about its work while it does it. -/
namespace Gazetteer

inductive Level where
  | warn
  | debug
  | trace
  deriving DecidableEq, Repr

inductive Event where
  | cacheMiss (page : Nat)
  | overCapacity (cached hint : Nat)
  | flushed (pages : Nat)
  | dropped (pages : Nat)
  | formatted (page : Nat)
  | linked (page next : Nat)
  | imported (keys : Nat)
  | searched (placement : String) (pagesRead candidates records : Nat)
  deriving DecidableEq, Repr

def Level.name : Level → String
  | .warn => "WARN"
  | .debug => "DEBUG"
  | .trace => "TRACE"

namespace Event

def level : Event → Level
  | .cacheMiss _ => .trace
  | .overCapacity _ _ => .warn
  | _ => .debug

def message : Event → String
  | .cacheMiss page => s!"Cache miss for page {page}."
  | .overCapacity cached hint =>
    s!"Buffer holds {cached} pages, above capacity hint {hint}; pages are never evicted."
  | .flushed pages => s!"Flushed {pages} dirty pages."
  | .dropped pages => s!"Dropping {pages} cached pages."
  | .formatted page => s!"Initialized page {page}."
  | .linked page next => s!"Page {page} is full, linked overflow page {next}."
  | .imported keys => s!"Imported primary index with {keys} keys."
  | .searched placement pagesRead candidates records =>
    placement ++ s!" radius search read {pagesRead} pages for {candidates} candidates, " ++
      s!"{records} records."

def line (e : Event) : String := e.level.name ++ " " ++ e.message

end Event

end Gazetteer
