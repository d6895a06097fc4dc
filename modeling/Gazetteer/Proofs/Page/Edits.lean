import Gazetteer.Page
import Gazetteer.Proofs.Page.Contents

/-! A page in use, from its format on. Whatever is appended and linked, and whether or not it is
taken, the page is the list of the values that were: each is read back at the slot it was given, the
bytes that are left are known exactly, and what is refused leaves every byte as it was. -/
namespace Gazetteer

namespace Block

variable {b : Block} {values : List (List UInt8)}

@[simp] theorem link?_unlink (b : Block) : b.unlink.link? = none := by
  rw [link?, unlink, word_setWord (by decide)]
  decide

theorem Holds.unlink (h : Holds b values) : Holds b.unlink values := h.linkTo noLink

theorem append?_isSome_iff {value : List UInt8} :
    (b.append? value).isSome = true ↔ b.hasRoom value.length = true := by
  unfold append?
  split
  · next room => simp [room]
  · next full => simp [full]

/-- Free space is what the longest next record may take. Where there is none, not even the slot and
the length of an empty record need fit. -/
theorem Holds.hasRoom_iff_le_freeSpace (h : Holds b values) {length : Nat}
    (some_byte : 0 < length) : b.hasRoom length = true ↔ length ≤ b.freeSpace := by
  have free := h.free
  rw [Block.hasRoom_iff, freeSpace, if_pos h.formatted]
  omega

end Block

namespace Page

/-- What is asked of a page once it is formatted. -/
inductive Edit where
  | append (value : List UInt8)
  | setLink (target : Option Nat)

/-- A page in use. `taken` has the records that found room, the oldest first, each behind the slot
that it was given; `target` is what the page was last linked to. -/
structure Session where
  page : Page
  taken : List (Nat × List UInt8) := []
  target : Option Nat := none

namespace Session

variable {s : Session}

def start (page : Page) : Session := { page := page.format }

def values (s : Session) : List (List UInt8) := s.taken.map Prod.snd

def edit (s : Session) : Edit → Session
  | .append value =>
    match s.page.append? value with
    | some (slot, page) => { s with page, taken := s.taken ++ [(slot, value)] }
    | none => s
  | .setLink target =>
    match s.page.setLink target with
    | .ok page => { s with page, target }
    | .error _ => s

def run (s : Session) (edits : List Edit) : Session := edits.foldl edit s

structure Valid (s : Session) : Prop where
  holds : s.page.block.Holds s.values
  slots : s.taken.map Prod.fst = List.range s.values.length
  link : s.page.block.link? = s.target

theorem valid_start (page : Page) : (start page).Valid := by
  constructor
  · exact Block.holds_format page.block
  · rfl
  · exact Block.link?_format page.block

theorem Valid.append (h : s.Valid) (value : List UInt8) : (s.edit (.append value)).Valid := by
  by_cases room : s.page.block.hasRoom value.length = true
  · have taken : s.page.append? value = some (s.page.block.count, s.page.push value) := by
      rw [Page.append?, Block.append?, if_pos room]
      rfl
    simp only [edit, taken]
    constructor
    · simpa [values, Page.push] using h.holds.push room
    · have slots := h.slots
      have next := h.holds.count
      simp only [values, List.length_map] at slots next
      simp [values, slots, next, List.range_succ]
    · exact (Block.link?_push room).trans h.link
  · have refused : s.page.append? value = none := by
      rw [Page.append?, Block.append?, if_neg room]
      rfl
    simpa only [edit, refused] using h

theorem Valid.setLink (h : s.Valid) (target : Option Nat) : (s.edit (.setLink target)).Valid := by
  cases target with
  | none =>
    constructor
    · exact h.holds.unlink
    · exact h.slots
    · exact Block.link?_unlink s.page.block
  | some id =>
    by_cases low : id < linkLimit
    · have linked : s.page.setLink (some id) =
          .ok { s.page with dirty := true, block := s.page.block.linkTo id } := if_pos low
      simp only [edit, linked]
      constructor
      · exact h.holds.linkTo id
      · exact h.slots
      · exact Block.link?_linkTo low
    · have refused : s.page.setLink (some id) = .error (.unlinkablePage id) := if_neg low
      simpa only [edit, refused] using h

theorem Valid.edit (h : s.Valid) (e : Edit) : (s.edit e).Valid := by
  cases e with
  | append value => exact h.append value
  | setLink target => exact h.setLink target

theorem Valid.run (h : s.Valid) (edits : List Edit) : (s.run edits).Valid := by
  induction edits generalizing s with
  | nil => exact h
  | cons e edits ih => exact ih (h.edit e)

/-- Behind any run of edits the page has the values that were taken, in their order and at the slots
that were given, with room for exactly what the bytes between the directory and the heap can take;
and an edit that is refused changes nothing. -/
theorem contents_of_edits (page : Page) (edits : List Edit) :
    let s := (start page).run edits
    let b := s.page.block
    (s.taken.map Prod.fst = List.range s.values.length ∧ b.count = s.values.length) ∧
    ((∀ slot, b.record? slot = s.values[slot]?) ∧ b.records = s.values) ∧
    (b.freeStart + (s.values.map fun v => 4 + v.length).sum = 4096 ∧
      16 + 8 * s.values.length ≤ b.freeStart) ∧
    (b.isFormatted = true ∧ b.link? = s.target) ∧
    (∀ value, ((s.page.append? value).isSome = true ↔
        12 * (s.values.length + 1) + (s.values.map List.length).sum + value.length ≤ 4080) ∧
      (value ≠ [] → ((s.page.append? value).isSome = true ↔ value.length ≤ b.freeSpace)) ∧
      (s.page.append? value = none → s.edit (.append value) = s)) ∧
    ∀ target, (target < linkLimit → ∃ linked, s.page.setLink (some target) = .ok linked) ∧
      (linkLimit ≤ target → s.page.setLink (some target) = .error (.unlinkablePage target) ∧
        s.edit (.setLink (some target)) = s) := by
  intro s b
  obtain ⟨holds, slots, link⟩ := (valid_start page).run edits
  have room : ∀ value, (s.page.append? value).isSome = true ↔ b.hasRoom value.length = true := by
    intro value
    rw [Page.append?, Option.isSome_map]
    exact Block.append?_isSome_iff
  refine ⟨⟨slots, holds.count⟩, ⟨holds.record?_eq, holds.records_eq⟩, ⟨holds.free, ?_⟩,
    ⟨holds.formatted, link⟩, ?_, ?_⟩
  · have directory : Block.directoryEnd s.values.length ≤ b.freeStart := holds.room
    simp only [Block.directoryEnd, Block.headerSize, Block.slotSize] at directory
    omega
  · intro value
    refine ⟨(room value).trans (holds.hasRoom_iff value.length), ?_, ?_⟩
    · intro some_byte
      exact (room value).trans
        (holds.hasRoom_iff_le_freeSpace (List.length_pos_of_ne_nil some_byte))
    · intro refused
      simp only [Session.edit, refused]
  · intro target
    constructor
    · exact fun low => ⟨_, if_pos low⟩
    · intro high
      have refused : s.page.setLink (some target) = .error (.unlinkablePage target) :=
        if_neg (Nat.not_lt_of_le high)
      exact ⟨refused, by simp only [Session.edit, refused]⟩

end Session

end Page

end Gazetteer
