import Std.Data.ExtTreeMap
import Gazetteer.Page.Block

/-! A page file: page `i` is the block at byte `pageSize * i`. Ids of pages are any numbers here; they
are meant to lie below `2 ^ 52`, where that position stays within a word of 64 bits.

A file may be far longer than what was written to it, and need not end where a page ends; so it is a
length, and the blocks that hold anything but zeros. Main statements: a write replaces the bytes of
one block and no others, and what the file grows over reads as zeros. -/
namespace Gazetteer

/-- Some blocks under their pages. The pages that are not listed hold zeros. -/
abbrev Blocks := Std.ExtTreeMap Nat Block

namespace Blocks

def block (bs : Blocks) (page : Nat) : Block := bs[page]?.getD .zero

def byte (bs : Blocks) (position : Nat) : UInt8 :=
  (bs.block (position / pageSize)).byte (position % pageSize)

def fill (bs : Blocks) (page : Nat) (bytes : List UInt8) : Blocks :=
  match bytes with
  | [] => bs
  | x :: xs => fill (bs.insert page (.ofBytes ((x :: xs).take pageSize))) (page + 1)
      ((x :: xs).drop pageSize)
termination_by bytes.length
decreasing_by
  have page : 0 < pageSize := by decide
  simp only [List.length_drop, List.length_cons]
  omega

theorem block_insert (bs : Blocks) (page : Nat) (block : Block) (other : Nat) :
    Blocks.block (bs.insert page block) other = if page = other then block else bs.block other := by
  simp only [Blocks.block, Std.ExtTreeMap.getElem?_insert, Nat.compare_eq_eq]
  by_cases same : page = other
  · simp [same]
  · simp [same]

theorem byte_insert (bs : Blocks) (page : Nat) (block : Block) (position : Nat) :
    byte (bs.insert page block) position =
      if page = position / pageSize then block.byte (position % pageSize)
      else bs.byte position := by
  rw [byte, block_insert]
  split <;> rfl

@[simp] theorem byte_empty (position : Nat) : byte ∅ position = 0 := by
  simp [byte, block]

theorem byte_fill (bs : Blocks) (page : Nat) (bytes : List UInt8)
    (blank : ∀ position, page * pageSize ≤ position → bs.byte position = 0) (position : Nat) :
    (bs.fill page bytes).byte position =
      if position < page * pageSize then bs.byte position
      else bytes[position - page * pageSize]?.getD 0 := by
  fun_induction fill bs page bytes with
  | case1 bs page =>
    by_cases before : position < page * pageSize
    · rw [if_pos before]
    · rw [if_neg before, blank position (by omega)]
      rfl
  | case2 bs page x xs ih =>
    have short : ((x :: xs).take pageSize).length ≤ pageSize := by
      rw [List.length_take]
      exact Nat.min_le_left _ _
    have next : (page + 1) * pageSize = page * pageSize + pageSize := Nat.succ_mul ..
    have positive : 0 < pageSize := by decide
    have here : page = position / pageSize ↔
        page * pageSize ≤ position ∧ position < (page + 1) * pageSize := by
      rw [eq_comm, Nat.div_eq_iff positive]
      omega
    have later : ∀ position, (page + 1) * pageSize ≤ position →
        byte (bs.insert page (.ofBytes ((x :: xs).take pageSize))) position = 0 := by
      intro position after
      have beyond : page < position / pageSize := (Nat.le_div_iff_mul_le positive).mpr after
      rw [byte_insert, if_neg (by omega), blank position (by omega)]
    rw [ih later, byte_insert, Block.byte_ofBytes short]
    by_cases before : position < page * pageSize
    · rw [if_pos (by omega), if_neg (by omega), if_pos before]
    · rw [if_neg before]
      by_cases inside : position < (page + 1) * pageSize
      · have page_eq : page = position / pageSize := here.mpr ⟨by omega, inside⟩
        have offset : position % pageSize = position - page * pageSize := by
          rw [Nat.mod_eq_sub_div_mul, ← page_eq]
        rw [if_pos inside, if_pos page_eq, offset, List.getElem?_take, if_pos (by omega)]
      · rw [if_neg inside, List.getElem?_drop]
        congr 2
        omega

end Blocks

/-- Nothing is kept past the end. -/
structure PageFile where
  length : Nat := 0
  blocks : Blocks := ∅
  blank_past_end : ∀ position, length ≤ position → blocks.byte position = 0 := by simp

namespace PageFile

def byte (f : PageFile) (position : Nat) : UInt8 := f.blocks.byte position

/-- A block that was never written, or that the file ends within, is absent. -/
def read? (f : PageFile) (page : Nat) : Option Block :=
  if (page + 1) * pageSize ≤ f.length then some (f.blocks.block page) else none

/-- The file with one block written. The file grows when the block ends past its end. -/
def write (f : PageFile) (page : Nat) (block : Block) : PageFile where
  length := max f.length ((page + 1) * pageSize)
  blocks := f.blocks.insert page block
  blank_past_end position past := by
    have apart : page ≠ position / pageSize := by
      simp only [pageSize] at *
      omega
    rw [Blocks.byte_insert, if_neg apart, f.blank_past_end position (by omega)]

def resize (f : PageFile) (length : Nat) : PageFile where
  length
  blocks := (f.blocks.filter fun page _ => page < length / pageSize).insert (length / pageSize)
    ((f.blocks.block (length / pageSize)).cut (length % pageSize))
  blank_past_end position past := by
    rw [Blocks.byte_insert, Block.byte_cut]
    split
    · have behind : ¬ position % pageSize < length % pageSize := by
        simp only [pageSize] at *
        omega
      rw [if_neg behind]
    · have dropped : ¬ position / pageSize < length / pageSize := by
        simp only [pageSize] at *
        omega
      simp [Blocks.byte, Blocks.block, dropped]

def ofBytes (bytes : List UInt8) : PageFile where
  length := bytes.length
  blocks := Blocks.fill ∅ 0 bytes
  blank_past_end position past := by
    rw [Blocks.byte_fill _ _ _ (fun _ _ => Blocks.byte_empty _), if_neg (by omega),
      List.getElem?_eq_none (by omega), Option.getD_none]

theorem byte_ofBytes (bytes : List UInt8) (position : Nat) :
    (ofBytes bytes).byte position = bytes[position]?.getD 0 := by
  rw [byte, ofBytes, Blocks.byte_fill _ _ _ (fun _ _ => Blocks.byte_empty _), if_neg (by omega),
    Nat.zero_mul, Nat.sub_zero]

theorem byte_resize (f : PageFile) (length position : Nat) :
    (f.resize length).byte position = if position < length then f.byte position else 0 := by
  by_cases past : length ≤ position
  · rw [if_neg (by omega)]
    exact (f.resize length).blank_past_end position past
  · rw [if_pos (by omega), byte, resize, Blocks.byte_insert, Block.byte_cut]
    split
    · next here =>
      have before : position % pageSize < length % pageSize := by
        simp only [pageSize] at *
        omega
      rw [if_pos before, here]
      rfl
    · next apart =>
      have kept : position / pageSize < length / pageSize := by
        simp only [pageSize] at *
        omega
      simp only [byte, Blocks.byte, Blocks.block, Std.ExtTreeMap.getElem?_filter', kept,
        decide_true]
      cases f.blocks[position / pageSize]? <;> rfl

theorem byte_write (f : PageFile) (page : Nat) (block : Block) (position : Nat) :
    (f.write page block).byte position =
      if page = position / pageSize then block.byte (position % pageSize)
      else f.byte position :=
  Blocks.byte_insert f.blocks page block position

theorem read?_write_self (f : PageFile) (page : Nat) (block : Block) :
    (f.write page block).read? page = some block := by
  rw [read?, write, if_pos (by simp only; omega), Blocks.block_insert, if_pos rfl]

theorem read?_write_of_whole {f : PageFile} {page other : Nat} (block : Block)
    (apart : other ≠ page) (whole : (other + 1) * pageSize ≤ f.length) :
    (f.write page block).read? other = f.read? other := by
  rw [read?, read?, if_pos whole, write, if_pos (by simp only; omega), Blocks.block_insert,
    if_neg (Ne.symm apart)]

end PageFile

end Gazetteer
