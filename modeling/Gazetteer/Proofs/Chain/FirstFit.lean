import Gazetteer.Proofs.Chain.Failure
import Gazetteer.Proofs.Pool.Outcome

/-! Where a record goes. The pages of a chain are tried in their order, and the first that accepts
the record takes it; if none does, the least page that was never formatted takes it and is linked
behind the last of the chain; if there is no such page, the append fails. No other byte of any page
changes. All of this is so whatever the pages hold, as long as the chain comes to an end. -/
namespace Gazetteer

open PoolM (Yields)

namespace Chain

variable {view : Nat → Block} {p : Pool} {maxPages length id home : Nat} {chain : List Nat}
  {value : List UInt8}

/-- The pages of the chain of a page, in order up to one that is linked to no other. -/
inductive Path (view : Nat → Block) : Nat → List Nat → Prop where
  | last {id : Nat} (unlinked : ∀ next, ¬ Linked view id next) : Path view id [id]
  | onward {id next : Nat} {chain : List Nat} (linked : Linked view id next)
      (path : Path view next chain) : Path view id (id :: chain)

theorem Ends.exists_path {seen : PageSet} (ends : Ends view id)
    (passed : ∀ old ∈ seen, Relation.TransGen (Linked view) old id) :
    ∃ chain, Path view id chain := by
  induction steps : seen.stepsLeft id using Nat.strongRecOn generalizing seen id with
  | ind n ih =>
    by_cases linked : ∃ next, Linked view id next
    · obtain ⟨next, linked⟩ := linked
      have fresh : id ∉ seen := fun known => ends id .refl (passed id known)
      have fewer := PageSet.stepsLeft_insert_lt fresh (Block.link?_lt linked.2)
      obtain ⟨chain, path⟩ :=
        ih _ (steps ▸ fewer) (ends.tail linked) (passed_insert passed linked) rfl
      exact ⟨id :: chain, .onward linked path⟩
    · exact ⟨[id], .last fun next there => linked ⟨next, there⟩⟩

theorem Ends.of_unlinked (unlinked : ∀ next, ¬ Linked view home next) : Ends view home := by
  intro id reached cycle
  rcases Relation.ReflTransGen.cases_head reached with rfl | ⟨next, linked, -⟩
  · obtain ⟨next, linked, -⟩ := Relation.TransGen.head'_iff.mp cycle
    exact unlinked next linked
  · exact unlinked next linked

def firstRoom? (view : Nat → Block) (length : Nat) (chain : List Nat) : Option Nat :=
  chain.find? fun id => (view id).accepts length

def leastBlank? (view : Nat → Block) (maxPages : Nat) : Option Nat :=
  (List.range maxPages).find? fun id => !(view id).isFormatted

/-- How the search for room along a chain ends, and what the pages show then. -/
inductive Fit (view : Nat → Block) (maxPages length : Nat) (chain : List Nat) :
    Except Fault Nat → (Nat → Block) → Prop where
  | found {place : Nat} (first : firstRoom? view length chain = some place) :
      Fit view maxPages length chain (.ok place) view
  | grown {last next : Nat} (full : firstRoom? view length chain = none)
      (tail : chain.getLast? = some last) (ready : (view last).isFormatted = true)
      (unlinked : (view last).link? = none) (blank : leastBlank? view maxPages = some next) :
      Fit view maxPages length chain (.ok next)
        (Function.update view last ((view last).linkTo next))
  | exhausted (full : firstRoom? view length chain = none)
      (none : leastBlank? view maxPages = none) :
      Fit view maxPages length chain (.error (.pageSpaceExhausted maxPages)) view

theorem Fit.onward {answer : Except Fault Nat} {after : Nat → Block}
    (h : Fit view maxPages length chain answer after)
    (refused : (view id).accepts length = false) :
    Fit view maxPages length (id :: chain) answer after := by
  have same : firstRoom? view length (id :: chain) = firstRoom? view length chain :=
    List.find?_cons_of_neg (by simp [refused])
  cases h with
  | found first => exact .found (same.trans first)
  | grown full tail ready unlinked blank =>
    exact .grown (same.trans full) (by simp [List.getLast?_cons, tail]) ready unlinked blank
  | exhausted full none => exact .exhausted (same.trans full) none

theorem firstFreeFrom_yields (readable : p.Readable) (maxPages id more : Nat) :
    Yields (firstFreeFrom maxPages id more) p
      (match (List.range' id more).find? fun id => !(p.view id).isFormatted with
        | some next => .ok next
        | none => .error (.pageSpaceExhausted maxPages)) p.view := by
  induction more generalizing id p with
  | zero => exact .throw readable _
  | succ more ih =>
    refine .fetch_bind readable id fun page q block ready same => ?_
    rw [block, List.range'_succ, List.find?_cons]
    cases formatted : (p.view id).isFormatted with
    | true => simpa only [same, Bool.not_true, if_true] using ih ready (id + 1)
    | false =>
      simpa only [same, Bool.not_false, Bool.false_eq_true, if_false] using Yields.pure ready id

theorem firstFree_yields (readable : p.Readable) {answer : Except Fault Nat}
    (found : answer = match leastBlank? p.view maxPages with
      | some next => .ok next
      | none => .error (.pageSpaceExhausted maxPages)) :
    Yields (firstFree maxPages) p answer p.view := by
  rw [found, leastBlank?, List.range_eq_range']
  exact firstFreeFrom_yields readable maxPages 0 maxPages

theorem link_yields (readable : p.Readable) (id : Nat) {next : Nat} (low : next < linkLimit) :
    Yields (link id next) p (.ok ()) (Function.update p.view id ((p.view id).linkTo next)) := by
  refine .fetch_bind readable id fun page q block ready same => ?_
  have set : page.setLink (some next) =
      .ok { page with dirty := true, block := page.block.linkTo next } := if_pos low
  rw [set, ← block, ← same]
  exact .keep_note ready id _ _

theorem grow_yields (readable : p.Readable) {last next : Nat}
    (blank : leastBlank? p.view maxPages = some next) (low : next < linkLimit) :
    Yields (do let next ← firstFree maxPages; link last next; return next) p (.ok next)
      (Function.update p.view last ((p.view last).linkTo next)) := by
  have free : Yields (firstFree maxPages) p (.ok next) p.view :=
    firstFree_yields readable (by rw [blank])
  refine free.bind fun q ready same => ?_
  have linked := link_yields ready last low
  rw [same] at linked
  refine linked.bind fun r ready same => ?_
  rw [← same]
  exact .pure ready next

theorem leastBlank?_lt {next : Nat} (blank : leastBlank? view maxPages = some next) :
    next < maxPages :=
  List.mem_range.mp (List.mem_of_find?_eq_some blank)

theorem roomFrom_yields {seen : PageSet} (path : Path p.view id chain) (ends : Ends p.view id)
    (passed : ∀ old ∈ seen, Relation.TransGen (Linked p.view) old id) (readable : p.Readable)
    (linkable : maxPages < linkLimit) (length : Nat) :
    ∃ answer after, Fit p.view maxPages length chain answer after ∧
      Yields (roomFrom maxPages length seen id) p answer after := by
  induction chain generalizing id seen p with
  | nil => cases path
  | cons first chain ih =>
    have own : first = id := by cases path <;> rfl
    subst own
    have fresh : first ∉ seen := fun known => ends first .refl (passed first known)
    obtain ⟨page, q, fetched, block, ready, same⟩ := Pool.fetch_shows readable first
    rw [roomFrom_eq, if_neg fresh]
    cases accepts : (p.view first).accepts length with
    | true =>
      refine ⟨.ok first, p.view, .found (List.find?_cons_of_pos accepts), .behind fetched ?_⟩
      rw [block, if_pos accepts, ← same]
      exact .pure ready first
    | false =>
      have formatted := (accepts_eq_false_iff.mp accepts).1
      have refused : ¬ page.block.accepts length = true := by simp [block, accepts]
      cases path with
      | last unlinked =>
        have full : firstRoom? p.view length [first] = none := by simp [firstRoom?, accepts]
        have none : (p.view first).link? = none :=
          Option.eq_none_iff_forall_ne_some.mpr fun next link => unlinked next ⟨formatted, link⟩
        cases blank : leastBlank? p.view maxPages with
        | none =>
          refine ⟨_, _, .exhausted full blank, .behind fetched ?_⟩
          rw [if_neg refused, block, none, ← same]
          exact .bind_error (firstFree_yields ready (by rw [same, blank]))
        | some next =>
          refine ⟨_, _, .grown full rfl formatted none blank, .behind fetched ?_⟩
          rw [if_neg refused, block, none, ← same]
          have low := Nat.lt_trans (leastBlank?_lt blank) linkable
          exact grow_yields ready (by rw [same, blank]) low
      | @onward _ next _ linked path =>
        obtain ⟨answer, after, fit, found⟩ := ih (same ▸ path) (same ▸ ends.tail linked)
          (same ▸ passed_insert passed linked) ready
        rw [same] at fit
        refine ⟨answer, after, fit.onward accepts, .behind fetched ?_⟩
        rw [if_neg refused, block, linked.2]
        exact found

theorem format_yields (readable : p.Readable) (id : Nat) :
    Yields (Pool.format id) p (.ok ()) (Function.update p.view id (p.view id).format) := by
  refine .fetch_bind readable id fun page q block ready same => ?_
  rw [← block, ← same]
  exact .keep_note ready id page.format _

theorem formatted_yields (readable : p.Readable) (id : Nat) :
    ∃ page : Page, page.block = (p.view id).opened ∧
      Yields (formatted id) p (.ok page) (Function.update p.view id (p.view id).opened) := by
  obtain ⟨page, q, fetched, block, ready, same⟩ := Pool.fetch_shows readable id
  unfold formatted Block.opened
  cases formatted : (p.view id).isFormatted with
  | true =>
    refine ⟨page, block, .behind fetched ?_⟩
    rw [block, if_pos formatted, if_pos rfl, Function.update_eq_self, ← same]
    exact .pure ready page
  | false =>
    obtain ⟨r, opened, ready, shown⟩ := format_yields ready id
    obtain ⟨page', s, fetched', block', ready, same'⟩ := Pool.fetch_shows ready id
    rw [same] at shown
    refine ⟨page', ?_, .behind fetched ?_⟩
    · rw [block', shown, Function.update_self]
      rfl
    · rw [block, formatted]
      exact .behind opened ⟨s, fetched', ready, same'.trans shown⟩

theorem appendTo_yields (readable : p.Readable) (id : Nat) (value : List UInt8) :
    Yields (appendTo id value) p (.ok ⟨id, (p.view id).opened.count⟩)
      (Function.update p.view id ((p.view id).opened.push value)) := by
  obtain ⟨page, block, opened⟩ := formatted_yields readable id
  refine opened.bind fun q ready shown => ?_
  have kept := Yields.keep ready id (page.push value)
  refine kept.bind fun r ready shown' => ?_
  rw [shown, Function.update_idem] at shown'
  change r.view = Function.update p.view id (page.block.push value) at shown'
  rw [← block, ← shown']
  exact .pure ready _

/-- A record taken by a page at its next slot, the first one of a page that is formatted for it. -/
structure Taken (before after : Block) (value : List UInt8) (slot : Nat) : Prop where
  next : slot = if before.isFormatted then before.count else 0
  appended : before.opened.append? value = some (slot, after)
  readable : after.record? slot = some value

theorem taken_push {b : Block} (fits : value.length ≤ Block.maxRecord)
    (accepts : b.accepts value.length = true) :
    Taken b (b.opened.push value) value b.opened.count := by
  have room := Block.hasRoom_opened fits accepts
  constructor
  · unfold Block.opened
    split
    · rfl
    · exact Block.count_format b
  · exact if_pos room
  · exact Block.record?_push (Block.isFormatted_opened b) room

theorem append_of_room {after : Nat → Block} (fits : value.length ≤ Block.maxRecord)
    (found : Yields (roomFrom maxPages value.length ∅ home) p (.ok id) after) :
    Yields (append home value maxPages) p (.ok ⟨id, (after id).opened.count⟩)
      (Function.update after id ((after id).opened.push value)) := by
  rw [append, if_neg (Nat.not_lt_of_le fits)]
  refine found.bind fun q ready shown => ?_
  rw [← shown]
  exact appendTo_yields ready id value

theorem append_of_none {after : Nat → Block} {fault : Fault}
    (fits : value.length ≤ Block.maxRecord)
    (none : Yields (roomFrom maxPages value.length ∅ home) p (.error fault) after) :
    Yields (append home value maxPages) p (.error fault) after := by
  rw [append, if_neg (Nat.not_lt_of_le fits)]
  exact none.bind_error

/-- What the pages show behind an append to the least blank page, linked behind the last. -/
structure Grown (before after : Nat → Block) (value : List UInt8) (last next : Nat) : Prop where
  taken : Taken (before next) (after next) value 0
  alone : (after next).records = [value]
  ending : (after next).link? = none
  apart : last ≠ next
  unlinked : (before last).link? = none
  linked : (after last).link? = some next
  tail : ∀ i, i < 12 ∨ 16 ≤ i → (after last).byte i = (before last).byte i
  others : ∀ id, id ≠ next → id ≠ last → after id = before id

theorem grown_update {last next : Nat} (fits : value.length ≤ Block.maxRecord)
    (ready : (view last).isFormatted = true) (unlinked : (view last).link? = none)
    (blank : (view next).isFormatted = false) (low : next < linkLimit) :
    Grown view (Function.update (Function.update view last ((view last).linkTo next)) next
      ((view next).opened.push value)) value last next := by
  have apart : last ≠ next := by
    rintro rfl
    rw [ready] at blank
    cases blank
  have opened : (view next).opened = (view next).format := if_neg (by simp [blank])
  have room : (view next).format.hasRoom value.length = true :=
    (Block.hasRoom_format _ _).mpr fits
  have taken := taken_push fits (Block.accepts_of_blank blank)
  have first : (view next).opened.count = 0 := by rw [opened, Block.count_format]
  constructor
  · rw [Function.update_self]
    exact first ▸ taken
  · rw [Function.update_self, opened]
    exact ((Block.holds_format _).push room).records_eq
  · rw [Function.update_self, opened, Block.link?_push room, Block.link?_format]
  · exact apart
  · exact unlinked
  · rw [Function.update_of_ne apart, Function.update_self]
    exact Block.link?_linkTo low
  · intro i outside
    rw [Function.update_of_ne apart, Function.update_self, Block.byte, Block.byte, Block.linkTo,
      Block.setWord, Block.overwrite_getElem?_frame]
    simpa using outside
  · intro id other behind
    rw [Function.update_of_ne other, Function.update_of_ne behind]

theorem append_of_found {place : Nat} (fits : value.length ≤ Block.maxRecord)
    (first : firstRoom? p.view value.length chain = some place)
    (found : Yields (roomFrom maxPages value.length ∅ home) p (.ok place) p.view) :
    ∃ slot q, append home value maxPages p = (.ok ⟨place, slot⟩, q) ∧
      Taken (p.view place) (q.view place) value slot ∧ ∀ id, id ≠ place → q.view id = p.view id := by
  have accepts : (p.view place).accepts value.length = true :=
    List.find?_some (p := fun id => (p.view id).accepts value.length) first
  obtain ⟨q, appended, -, shown⟩ := append_of_room fits found
  refine ⟨_, q, appended, ?_, ?_⟩
  · rw [shown, Function.update_self]
    exact taken_push fits accepts
  · intro id apart
    rw [shown, Function.update_of_ne apart]

theorem append_of_grown {last next : Nat} (fits : value.length ≤ Block.maxRecord)
    (linkable : maxPages < linkLimit) (ready : (p.view last).isFormatted = true)
    (unlinked : (p.view last).link? = none) (blank : leastBlank? p.view maxPages = some next)
    (found : Yields (roomFrom maxPages value.length ∅ home) p (.ok next)
      (Function.update p.view last ((p.view last).linkTo next))) :
    ∃ q, append home value maxPages p = (.ok ⟨next, 0⟩, q) ∧
      Grown p.view q.view value last next := by
  have free : (p.view next).isFormatted = false := by
    simpa using List.find?_some (p := fun id => !(p.view id).isFormatted) blank
  have low := Nat.lt_trans (leastBlank?_lt blank) linkable
  have grown := grown_update fits ready unlinked free low
  have same : Function.update p.view last ((p.view last).linkTo next) next = p.view next :=
    Function.update_of_ne grown.apart.symm _ _
  have first : (p.view next).opened.count = 0 := by
    rw [Block.opened, free]
    exact Block.count_format _
  obtain ⟨q, appended, -, shown⟩ := append_of_room fits found
  rw [same] at shown appended
  rw [first] at appended
  exact ⟨q, appended, shown ▸ grown⟩

/-- An append to a chain that comes to an end, while no read fails: it goes to the first page of the
chain that accepts it, else to the least page that was never formatted, which is linked behind the
last of the chain, and else nowhere. -/
theorem append_first_fit (readable : p.Readable) (ends : Ends p.view home)
    (linkable : maxPages < linkLimit) (fits : value.length ≤ Block.maxRecord) :
    ∃ chain answer q, Path p.view home chain ∧ append home value maxPages p = (answer, q) ∧
      (∀ place, firstRoom? p.view value.length chain = some place →
        ∃ slot, answer = .ok ⟨place, slot⟩ ∧ Taken (p.view place) (q.view place) value slot ∧
          ∀ id, id ≠ place → q.view id = p.view id) ∧
      (∀ next, firstRoom? p.view value.length chain = none →
        leastBlank? p.view maxPages = some next →
        answer = .ok ⟨next, 0⟩ ∧
          ∃ last, chain.getLast? = some last ∧ Grown p.view q.view value last next) ∧
      (firstRoom? p.view value.length chain = none → leastBlank? p.view maxPages = none →
        answer = .error (.pageSpaceExhausted maxPages) ∧ q.view = p.view) := by
  have nothing : ∀ old ∈ (∅ : PageSet), Relation.TransGen (Linked p.view) old home := by simp
  obtain ⟨chain, path⟩ := ends.exists_path nothing
  obtain ⟨answer, after, fit, found⟩ :=
    roomFrom_yields path ends nothing readable linkable value.length
  -- the way the search ended fixes which of the three cases can come up
  cases fit with
  | found first =>
    obtain ⟨slot, q, appended, taken, others⟩ := append_of_found fits first found
    refine ⟨chain, _, q, path, appended, ?_, by simp [first], by simp [first]⟩
    intro place also
    cases first.symm.trans also
    exact ⟨slot, rfl, taken, others⟩
  | @grown last next full tail ready unlinked blank =>
    obtain ⟨q, appended, grown⟩ := append_of_grown fits linkable ready unlinked blank found
    refine ⟨chain, _, q, path, appended, by simp [full], ?_, by simp [blank]⟩
    intro other _ also
    cases blank.symm.trans also
    exact ⟨rfl, last, tail, grown⟩
  | exhausted full none =>
    obtain ⟨q, failed, -, shown⟩ := append_of_none fits found
    exact ⟨chain, _, q, path, failed, by simp [full], by simp [none], fun _ _ => ⟨rfl, shown⟩⟩

/-- A store of two pages of which the first is full. -/
theorem append_behind_full_page : ∃ p q : Pool, p.view 0 = fullBlock ∧
    append 0 [7] 2 p = (.ok ⟨1, 0⟩, q) ∧ Grown p.view q.view [7] 0 1 := by
  let p : Pool := (Pool.over .inMemory {}).keep 0 ⟨0, true, fullBlock⟩
  have empty : Disk.inMemory.medium.IsEmpty := rfl
  have first : p.view 0 = fullBlock := by rw [Pool.view_keep, if_pos rfl]
  have second : p.view 1 = .zero := by
    rw [Pool.view_keep, if_neg (by decide), Pool.view_over empty]
  have unlinked : ∀ next, ¬ Linked p.view 0 next :=
    not_linked_of_none (by rw [first, fullBlock_link])
  have linkable : 2 < linkLimit := by decide
  have fits : [(7 : UInt8)].length ≤ Block.maxRecord := by decide
  obtain ⟨chain, answer, q, path, appended, -, grown, -⟩ :=
    append_first_fit (p := p) ⟨rfl, rfl⟩ (Ends.of_unlinked unlinked) linkable fits
  have alone : chain = [0] := by
    cases path with
    | last => rfl
    | onward linked => exact (unlinked _ linked).elim
  subst alone
  have full : firstRoom? p.view 1 [0] = none := by simp [firstRoom?, first, fullBlock_accepts]
  have blank : leastBlank? p.view 2 = some 1 := by
    simp [leastBlank?, List.range_succ, first, second, fullBlock_formatted,
      Block.isFormatted_zero]
  obtain ⟨rfl, last, tail, grown⟩ := grown 1 full blank
  cases tail
  exact ⟨p, q, first, appended, grown⟩

end Chain

end Gazetteer
