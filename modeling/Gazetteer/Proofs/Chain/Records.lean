import Gazetteer.Proofs.Chain.Append

/-! Appends to sound pages. Seen as lists of values and as links, an append puts one value behind
those of one page, which the chain of the home leads to from then on; all that was there stays. -/
namespace Gazetteer

namespace Block

variable {b : Block}

theorem Sound.opened (h : b.Sound) : Holds b.opened b.records := by
  unfold Block.opened
  split
  · next formatted => exact h formatted
  · next blank =>
    rw [records_of_blank (by simpa using blank)]
    exact holds_format b

theorem isFormatted_opened (b : Block) : b.opened.isFormatted = true := by
  unfold opened
  split
  · assumption
  · exact isFormatted_format b

theorem link?_opened (formatted : b.isFormatted = true) : b.opened.link? = b.link? := by
  rw [opened, if_pos formatted]

theorem hasRoom_opened {length : Nat} (fits : length ≤ maxRecord)
    (accepts : b.accepts length = true) : b.opened.hasRoom length = true := by
  unfold opened
  split
  · next formatted => simpa [Block.accepts, formatted] using accepts
  · exact (hasRoom_format b length).mpr fits

theorem accepts_of_blank {length : Nat} (blank : b.isFormatted = false) :
    b.accepts length = true := by
  simp [Block.accepts, blank]

/-- Bytes that a record takes of a page, with its slot and its length. -/
def weight (value : List UInt8) : Nat := slotSize + lengthSize + value.length

def weights (values : List (List UInt8)) : Nat := (values.map weight).sum

theorem weights_cons (value : List UInt8) (values : List (List UInt8)) :
    weights (value :: values) = weight value + weights values := List.sum_cons

theorem weights_concat (values : List (List UInt8)) (value : List UInt8) :
    weights (values ++ [value]) = weights values + weight value := by
  simp [weights]

theorem weights_eq (values : List (List UInt8)) :
    weights values = (slotSize + lengthSize) * values.length + (values.map List.length).sum := by
  induction values with
  | nil => rfl
  | cons value values ih =>
    rw [weights_cons, ih, List.map_cons, List.sum_cons, List.length_cons, Nat.mul_succ, weight]
    omega

theorem Holds.accepts_iff {values : List (List UInt8)} (h : Holds b values) (value : List UInt8) :
    b.accepts value.length = true ↔ weights values + weight value ≤ pageSize - headerSize := by
  have room := h.hasRoom_iff value.length
  simp only [Block.accepts, h.formatted, not_true, false_or, decide_eq_true_eq, room]
  rw [weights_eq, weight, Nat.mul_succ]
  omega

theorem Sound.accepts {value : List UInt8} (h : b.Sound)
    (room : weights b.records + weight value ≤ pageSize - headerSize) :
    b.accepts value.length = true := by
  cases formatted : b.isFormatted with
  | true => exact ((h formatted).accepts_iff value).mpr room
  | false => exact accepts_of_blank formatted

end Block

namespace Chain

variable {before after : Nat → Block}

theorem Room.accepts {view : Nat → Block} {maxPages length home place : Nat}
    {growth : Pool.Changes} (h : Room view maxPages length home place growth) :
    (view place).accepts length = true := by
  cases h with
  | found passed accepted => exact accepted
  | grown passed refused unlinked blank least inside linkable => exact Block.accepts_of_blank blank

/-- What an append of `value` at `place` does to the pages, `home` being where the chain begins. -/
structure Appends (before after : Nat → Block) (home : Nat) (value : List UInt8)
    (place : RecordId) : Prop where
  sound : ∀ id, (after id).Sound
  records : ∀ id, (after id).records =
    if place.page = id then (before id).records ++ [value] else (before id).records
  slot : place.slot = (before place.page).records.length
  linked : ∀ id next, Linked before id next → Linked after id next
  reaches : Reaches after home place.page

theorem Appends.record?_of_some {home : Nat} {value old : List UInt8} {place : RecordId}
    (h : Appends before after home value place) (sound : ∀ id, (before id).Sound) {id slot : Nat}
    (there : (before id).record? slot = some old) : (after id).record? slot = some old := by
  rw [(sound id).record?_eq] at there
  rw [(h.sound id).record?_eq, h.records]
  split
  · rw [List.getElem?_append_left (List.getElem?_eq_some_iff.mp there).1]
    exact there
  · exact there

theorem Appends.record?_free {home : Nat} {value : List UInt8} {place : RecordId}
    (h : Appends before after home value place) (sound : ∀ id, (before id).Sound) :
    (before place.page).record? place.slot = none := by
  rw [(sound place.page).record?_eq, h.slot]
  exact List.getElem?_eq_none (Nat.le_refl _)

theorem Appends.record?_place {home : Nat} {value : List UInt8} {place : RecordId}
    (h : Appends before after home value place) :
    (after place.page).record? place.slot = some value := by
  rw [(h.sound place.page).record?_eq, h.records, if_pos rfl, h.slot, List.getElem?_concat_length]

theorem Appends.reaches_of_reaches {home : Nat} {value : List UInt8} {place : RecordId}
    (h : Appends before after home value place) {a b : Nat} (there : Reaches before a b) :
    Reaches after a b :=
  Relation.ReflTransGen.mono h.linked _ _ there

theorem append_view {p q : Pool} {home maxPages : Nat} {value : List UInt8} {place : RecordId}
    (filed : p.Filed) (h : append home value maxPages p = (.ok place, q)) :
    ∃ growth, Room p.view maxPages value.length home place.page growth ∧
      (p.view place.page).opened.hasRoom value.length = true ∧
      q.view place.page = (p.view place.page).opened.push value ∧
      ∀ id, place.page ≠ id → q.view id = (growth id).getD (p.view id) := by
  obtain ⟨fits, -, growth, room, updated⟩ := append_ok filed h
  refine ⟨growth, room, Block.hasRoom_opened fits room.accepts, ?_, ?_⟩
  · rw [updated.view_eq, Pool.Changes.after, Pool.changedAt, if_pos rfl]
    rfl
  · intro id apart
    rw [updated.view_eq, Pool.Changes.after, Pool.changedAt, if_neg apart]
    rfl

/-- No link is ever changed. -/
theorem append_linked {p q : Pool} {home maxPages : Nat} {value : List UInt8} {place : RecordId}
    (filed : p.Filed) (h : append home value maxPages p = (.ok place, q)) {id next : Nat}
    (linked : Linked p.view id next) : Linked q.view id next := by
  obtain ⟨growth, room, roomy, here, there⟩ := append_view filed h
  obtain ⟨formatted, link⟩ := linked
  by_cases same : place.page = id
  · subst same
    rw [Linked, here, Block.isFormatted_push roomy, Block.link?_push roomy,
      Block.link?_opened formatted]
    exact ⟨Block.isFormatted_opened _, link⟩
  · rw [Linked, there id same]
    cases grown : growth id with
    | none => exact ⟨formatted, link⟩
    | some block =>
      -- only a page without a link is linked
      obtain ⟨-, -, unlinked, -⟩ := room.growth_eq grown
      rw [unlinked] at link
      cases link

theorem linked_push {b : Block} {value : List UInt8}
    (roomy : b.opened.hasRoom value.length = true) {next : Nat}
    (link : (b.opened.push value).link? = some next) :
    b.isFormatted = true ∧ b.link? = some next := by
  rw [Block.link?_push roomy] at link
  cases formatted : b.isFormatted with
  | true => exact ⟨rfl, by rwa [Block.link?_opened formatted] at link⟩
  | false =>
    rw [Block.opened, formatted, if_neg (by decide), Block.link?_format] at link
    cases link

/-- At most one link is new. It leads from a page that was formatted to the page that takes the
record, which was blank. -/
theorem append_new_link {p q : Pool} {home maxPages : Nat} {value : List UInt8} {place : RecordId}
    (filed : p.Filed) (h : append home value maxPages p = (.ok place, q)) :
    ∃ last, ∀ id next, Linked q.view id next → Linked p.view id next ∨
      (id = last ∧ next = place.page ∧ (p.view last).isFormatted = true ∧
        (p.view place.page).isFormatted = false) := by
  obtain ⟨growth, room, roomy, here, there⟩ := append_view filed h
  have stays : ∀ next, Linked q.view place.page next → Linked p.view place.page next := by
    rintro next ⟨-, link⟩
    rw [here] at link
    exact linked_push roomy link
  cases room with
  | found passed accepted =>
    refine ⟨home, fun id next linked => Or.inl ?_⟩
    by_cases same : place.page = id
    · exact same ▸ stays next (same ▸ linked)
    · rwa [Linked, there id same] at linked
  | @grown last _ passed refused unlinked blank least inside linkable =>
    refine ⟨last, fun id next linked => ?_⟩
    by_cases same : place.page = id
    · exact Or.inl (same ▸ stays next (same ▸ linked))
    · by_cases tail : last = id
      · right
        rw [Linked, there id same, Pool.changedAt, if_pos tail, Option.getD_some,
          Block.link?_linkTo linkable] at linked
        exact ⟨tail.symm, (Option.some.inj linked.2).symm, (accepts_eq_false_iff.mp refused).1,
          blank⟩
      · left
        rwa [Linked, there id same, Pool.changedAt, if_neg tail] at linked

theorem append_isFormatted_iff {p q : Pool} {home maxPages : Nat} {value : List UInt8}
    {place : RecordId} (filed : p.Filed) (h : append home value maxPages p = (.ok place, q))
    (id : Nat) :
    (q.view id).isFormatted = true ↔ (p.view id).isFormatted = true ∨ id = place.page := by
  obtain ⟨growth, room, roomy, here, there⟩ := append_view filed h
  by_cases same : place.page = id
  · subst same
    rw [here, Block.isFormatted_push roomy]
    simp [Block.isFormatted_opened]
  · rw [there id same]
    cases grown : growth id with
    | none => simp [Ne.symm same]
    | some block =>
      obtain ⟨rfl, formatted, -⟩ := room.growth_eq grown
      simp [Block.isFormatted_linkTo, formatted]

theorem append_appends {p q : Pool} {home maxPages : Nat} {value : List UInt8} {place : RecordId}
    (filed : p.Filed) (sound : ∀ id, (p.view id).Sound)
    (h : append home value maxPages p = (.ok place, q)) :
    Appends p.view q.view home value place := by
  obtain ⟨-, slot, -⟩ := append_ok filed h
  obtain ⟨growth, room, roomy, here, there⟩ := append_view filed h
  have opened := (sound place.page).opened
  have pushed := opened.push roomy
  have linkedTo : ∀ id block, growth id = some block → Block.Holds block (p.view id).records := by
    intro id block grown
    obtain ⟨rfl, formatted, -⟩ := room.growth_eq grown
    exact (sound id formatted).linkTo _
  have linked : ∀ id next, Linked p.view id next → Linked q.view id next :=
    fun _ _ => append_linked filed h
  refine ⟨?_, ?_, ?_, linked, ?_⟩
  · intro id
    by_cases same : place.page = id
    · subst same
      rw [here]
      exact pushed.sound
    · rw [there id same]
      cases grown : growth id with
      | none => exact sound id
      | some block => exact (linkedTo id block grown).sound
  · intro id
    by_cases same : place.page = id
    · subst same
      rw [if_pos rfl, here]
      exact pushed.records_eq
    · rw [if_neg same, there id same]
      cases grown : growth id with
      | none => rfl
      | some block => exact (linkedTo id block grown).records_eq
  · rw [slot]
    exact opened.count
  · have onward : ∀ id, Reaches p.view home id → Reaches q.view home id := fun id there =>
      Relation.ReflTransGen.mono linked _ _ there
    cases room with
    | found passed accepted => exact onward _ passed.reaches
    | @grown last _ passed refused unlinked blank least inside linkable =>
      have formatted := (accepts_eq_false_iff.mp refused).1
      have apart : place.page ≠ last := by
        rintro rfl
        rw [formatted] at blank
        cases blank
      have tail : q.view last = (p.view last).linkTo place.page := by
        rw [there last apart, Pool.changedAt, if_pos rfl]
        rfl
      refine (onward last passed.reaches).tail ?_
      rw [Linked, tail, Block.isFormatted_linkTo, Block.link?_linkTo linkable]
      exact ⟨formatted, rfl⟩

end Chain

end Gazetteer
