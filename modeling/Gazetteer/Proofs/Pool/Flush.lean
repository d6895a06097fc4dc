import Gazetteer.Proofs.Pool.Updates

/-! Between the pool and its medium: every clean page is a copy of what the medium holds. All work
keeps that, so after a flush that answers nothing is lost by dropping all pages. A flush that stops
midway has written some pages and not others, and is seen by no one. -/
namespace Gazetteer.Pool

/-- Pages are kept under their own ids, and the clean ones are copies of the medium. -/
structure Coherent (p : Pool) : Prop where
  whole : p.disk.medium.Whole
  filed : p.Filed
  copy : ∀ (id : Nat) (page : Page), p.cached[id]? = some page → page.dirty = false →
    page.block = p.disk.medium.block id

def Clean (p : Pool) : Prop :=
  ∀ (id : Nat) (page : Page), p.cached[id]? = some page → page.dirty = false

theorem Loads.clean {p q : Pool} (h : Loads p q) (clean : p.Clean) : q.Clean := by
  intro id page found
  cases before : p.cached[id]? with
  | some held =>
    rw [h.kept id held rfl before] at found
    exact clean id page (before.trans found)
  | none =>
    rw [h.fresh id page rfl before found]
    rfl

theorem Updates.coherent {p q : Pool} {changes : Changes} (h : Updates p q changes)
    (coherent : p.Coherent) : q.Coherent := by
  refine ⟨?_, h.filed coherent.filed, ?_⟩
  · rw [h.medium]
    exact coherent.whole
  · intro id page found clean
    rw [h.medium]
    cases changed : changes id with
    | some block =>
      rw [h.changed id block changed] at found
      cases found
      cases clean
    | none =>
      cases before : p.cached[id]? with
      | none =>
        rw [h.fresh id page changed before found]
        rfl
      | some old =>
        rw [h.kept id old changed before] at found
        cases found
        exact coherent.copy id page before clean

theorem view_of_clean {p : Pool} (coherent : p.Coherent) (clean : p.Clean) (id : Nat) :
    p.view id = p.disk.medium.block id := by
  cases found : p.cached[id]? with
  | none =>
    rw [view, found]
    rfl
  | some page =>
    rw [view, found]
    exact coherent.copy id page found (clean id page found)

def wrote (p : Pool) (page : Page) : Pool :=
  { p with disk := { p.disk with
      medium := p.disk.medium.write page.id page.block
      calls := .wrote page.id page.block :: p.disk.calls } }.keep page.id page.clearDirty

def missed (p : Pool) (page : Page) : Pool :=
  { p with disk := { p.disk with calls := .unwritten page.id :: p.disk.calls } }

theorem writeBack_of_none {p : Pool} {page : Page}
    (safe : p.disk.writeFault? page.id = none) :
    writeBack page p = (.ok (), p.wrote page) := by
  simp only [writeBack, Disk.write, safe]
  rfl

theorem writeBack_of_some {p : Pool} {page : Page} {fault : Fault}
    (fails : p.disk.writeFault? page.id = some fault) :
    writeBack page p = (.error fault, p.missed page) := by
  simp only [writeBack, Disk.write, fails]
  rfl

theorem writeBack_cases {p q : Pool} {page : Page} {answer : Except Fault Unit}
    (h : writeBack page p = (answer, q)) :
    (answer = .ok () ∧ q = p.wrote page) ∨ ∃ fault, answer = .error fault ∧ q = p.missed page := by
  cases fails : p.disk.writeFault? page.id with
  | none =>
    cases (writeBack_of_none fails).symm.trans h
    exact .inl ⟨rfl, rfl⟩
  | some fault =>
    cases (writeBack_of_some fails).symm.trans h
    exact .inr ⟨fault, rfl, rfl⟩

theorem cached_wrote (p : Pool) (page : Page) (id : Nat) :
    (p.wrote page).cached[id]? = if page.id = id then some page.clearDirty else p.cached[id]? := by
  simp only [wrote, keep, Std.ExtTreeMap.getElem?_insert, Nat.compare_eq_eq]

theorem block_wrote {p : Pool} (whole : p.disk.medium.Whole) (page : Page) (id : Nat) :
    (p.wrote page).disk.medium.block id =
      if page.id = id then page.block else p.disk.medium.block id :=
  Medium.block_write whole page.id page.block id

/-- What a flush does to pages that it was to write, `pages`, and to the others. Each page of the
medium is as it was, or as it is seen. -/
structure Settles (p q : Pool) (pages : List Page) : Prop where
  coherent : q.Coherent
  view_eq : q.view = p.view
  medium : ∀ id, q.disk.medium.block id = p.disk.medium.block id ∨
    q.disk.medium.block id = p.view id
  lasting : p.disk.medium.Lasting → q.disk.medium.Lasting
  isOpen : q.disk.isOpen = p.disk.isOpen
  apart : ∀ id, (∀ page ∈ pages, page.id ≠ id) → q.cached[id]? = p.cached[id]?

theorem settles_missed {p : Pool} (coherent : p.Coherent) (page : Page) (pages : List Page) :
    Settles p (p.missed page) pages :=
  ⟨⟨coherent.whole, coherent.filed, coherent.copy⟩, rfl, fun _ => .inl rfl, id, rfl, fun _ _ => rfl⟩

theorem settles_wrote {p : Pool} {page : Page} (coherent : p.Coherent)
    (held : p.cached[page.id]? = some page) : Settles p (p.wrote page) [page] := by
  have block := block_wrote coherent.whole page
  refine ⟨⟨Medium.whole_write coherent.whole _ _, ?_, ?_⟩, ?_, ?_, fun lasting => lasting.write _ _,
    rfl, ?_⟩
  · intro id other found
    rw [cached_wrote] at found
    split at found
    · next same =>
      cases found
      exact same
    · exact coherent.filed id other found
  · intro id other found clean
    rw [cached_wrote] at found
    rw [block]
    split at found
    · next same =>
      cases found
      exact (if_pos same).symm
    · next apart =>
      rw [if_neg apart]
      exact coherent.copy id other found clean
  · funext id
    by_cases same : page.id = id
    · subst same
      simp [view, cached_wrote, held, Page.clearDirty]
    · simp only [view, cached_wrote, if_neg same]
      cases p.cached[id]? with
      | some other => rfl
      | none => exact (block id).trans (if_neg same)
  · intro id
    rw [block]
    split
    · next same =>
      right
      rw [← same, view, held]
    · exact .inl rfl
  · intro id apart
    rw [cached_wrote, if_neg (apart page (List.mem_singleton.mpr rfl))]

theorem writeBack_settles {p q : Pool} {page : Page} {answer : Except Fault Unit}
    (coherent : p.Coherent) (held : p.cached[page.id]? = some page)
    (h : writeBack page p = (answer, q)) : Settles p q [page] := by
  rcases writeBack_cases h with ⟨-, rfl⟩ | ⟨fault, -, rfl⟩
  · exact settles_wrote coherent held
  · exact settles_missed coherent page _

theorem Settles.refl {p : Pool} (coherent : p.Coherent) : Settles p p [] :=
  ⟨coherent, rfl, fun _ => Or.inl rfl, id, rfl, fun _ _ => rfl⟩

theorem Settles.trans {p q r : Pool} {first second : List Page} (earlier : Settles p q first)
    (later : Settles q r second) : Settles p r (first ++ second) where
  coherent := later.coherent
  view_eq := later.view_eq.trans earlier.view_eq
  medium := by
    intro id
    rcases later.medium id with kept | written
    · rw [kept]
      exact earlier.medium id
    · rw [written, earlier.view_eq]
      exact Or.inr rfl
  lasting kept := later.lasting (earlier.lasting kept)
  isOpen := later.isOpen.trans earlier.isOpen
  apart := by
    intro id apart
    rw [later.apart id fun page member => apart page (List.mem_append_right _ member),
      earlier.apart id fun page member => apart page (List.mem_append_left _ member)]

theorem Settles.mono {p q : Pool} {pages more : List Page} (h : Settles p q pages)
    (fewer : ∀ page ∈ pages, page ∈ more) : Settles p q more :=
  ⟨h.coherent, h.view_eq, h.medium, h.lasting, h.isOpen,
    fun id apart => h.apart id fun page member => apart page (fewer page member)⟩

theorem forM_writeBack_settles {p q : Pool} {pages : List Page} {answer : Except Fault PUnit}
    (coherent : p.Coherent) (ascending : pages.Pairwise fun a b => a.id < b.id)
    (held : ∀ page ∈ pages, p.cached[page.id]? = some page)
    (h : pages.forM writeBack p = (answer, q)) :
    Settles p q pages ∧ ∀ u, answer = .ok u →
      ∀ page ∈ pages, q.cached[page.id]? = some page.clearDirty := by
  induction pages generalizing p with
  | nil =>
    cases h
    exact ⟨.refl coherent, fun _ _ page none => by cases none⟩
  | cons page pages ih =>
    obtain ⟨least, rest⟩ := List.pairwise_cons.mp ascending
    have here := held page List.mem_cons_self
    -- the pages that are still to be written have other ids than the one that was
    have still : ∀ r, Settles p r [page] → ∀ other ∈ pages, r.cached[other.id]? = some other := by
      intro r step other member
      rw [step.apart other.id]
      · exact held other (List.mem_cons_of_mem _ member)
      · intro only same
        cases List.mem_singleton.mp same
        exact Nat.ne_of_lt (least other member)
    change (writeBack page >>= fun _ => pages.forM writeBack) p = _ at h
    cases answer with
    | error fault =>
      refine ⟨?_, fun u impossible => by cases impossible⟩
      rcases PoolM.bind_error h with first | ⟨u, r, first, later⟩
      · exact (writeBack_settles coherent here first).mono fun other same => by
          cases List.mem_singleton.mp same
          exact List.mem_cons_self
      · have step := writeBack_settles coherent here first
        exact step.trans (ih step.coherent rest (still r step) later).1
    | ok u =>
      obtain ⟨u, r, first, later⟩ := PoolM.bind_ok h
      have step := writeBack_settles coherent here first
      have wrote : r = p.wrote page := by
        rcases writeBack_cases first with ⟨-, wrote⟩ | ⟨fault, impossible, -⟩
        · exact wrote
        · cases impossible
      obtain ⟨tail, written⟩ := ih step.coherent rest (still r step) later
      refine ⟨step.trans tail, ?_⟩
      intro v answered other member
      rcases List.mem_cons.mp member with same | later
      · subst same
        rw [tail.apart other.id fun next behind => Nat.ne_of_gt (least next behind),
          wrote, cached_wrote, if_pos rfl]
      · exact written v answered other later

theorem mem_dirtyPages {p : Pool} {page : Page} :
    page ∈ p.dirtyPages ↔ page.dirty = true ∧ ∃ id : Nat, p.cached[id]? = some page := by
  simp only [dirtyPages, List.mem_filter, List.mem_map, Prod.exists, exists_eq_right,
    Std.ExtTreeMap.mem_toList_iff_getElem?_eq_some]
  exact and_comm

theorem Filed.mem_dirtyPages_iff {p : Pool} (filed : p.Filed) {page : Page} :
    page ∈ p.dirtyPages ↔ page.dirty = true ∧ p.cached[page.id]? = some page := by
  rw [mem_dirtyPages]
  constructor
  · rintro ⟨dirty, id, found⟩
    rw [filed id page found]
    exact ⟨dirty, found⟩
  · exact fun ⟨dirty, found⟩ => ⟨dirty, page.id, found⟩

theorem Filed.dirtyPages_ascending {p : Pool} (filed : p.Filed) :
    p.dirtyPages.Pairwise fun a b => a.id < b.id := by
  apply List.Pairwise.filter
  rw [List.pairwise_map]
  apply List.Pairwise.imp_of_mem _ p.cached.ordered_keys_toList
  intro a b first second below
  have a_own := filed a.1 a.2 (Std.ExtTreeMap.mem_toList_iff_getElem?_eq_some.mp first)
  have b_own := filed b.1 b.2 (Std.ExtTreeMap.mem_toList_iff_getElem?_eq_some.mp second)
  rw [a_own, b_own]
  exact Nat.compare_eq_lt.mp below

/-- The table may list its entries in any order: sorted by id, the changed pages are the same. -/
theorem Filed.mergeSort_dirty {p : Pool} (filed : p.Filed) {entries : List (Nat × Page)}
    (perm : entries.Perm p.cached.toList) :
    ((entries.map Prod.snd).filter Page.dirty).mergeSort (fun a b => a.id ≤ b.id) =
      p.dirtyPages := by
  let least : Page → Page → Bool := fun a b => a.id ≤ b.id
  have sorted : List.Pairwise (fun a b => least a b = true)
      (((entries.map Prod.snd).filter Page.dirty).mergeSort least) := by
    apply List.pairwise_mergeSort
    · intro a b c ab bc
      exact decide_eq_true (Nat.le_trans (of_decide_eq_true ab) (of_decide_eq_true bc))
    · intro a b
      simpa [least] using Nat.le_total a.id b.id
  have ascending : p.dirtyPages.Pairwise fun a b => least a b = true :=
    filed.dirtyPages_ascending.imp fun below => decide_eq_true (Nat.le_of_lt below)
  have pages := (List.mergeSort_perm _ least).trans ((perm.map Prod.snd).filter Page.dirty)
  refine pages.eq_of_pairwise ?_ sorted ascending
  intro a b first second below above
  -- no two changed pages have the same id
  have same : a.id = b.id :=
    Nat.le_antisymm (of_decide_eq_true below) (of_decide_eq_true above)
  have here := (filed.mem_dirtyPages_iff.mp (pages.mem_iff.mp first)).2
  have there := (filed.mem_dirtyPages_iff.mp second).2
  rw [same, there] at here
  exact (Option.some.inj here).symm

theorem flush_eq (p : Pool) :
    flush p = (p.dirtyPages.forM writeBack >>= fun _ => do
      modify (·.note (.flushed p.dirtyPages.length))
      return p.dirtyPages.length) p :=
  rfl

theorem Settles.note {p q : Pool} {pages : List Page} (h : Settles p q pages) (e : Event) :
    Settles p (q.note e) pages :=
  ⟨⟨h.coherent.whole, h.coherent.filed, h.coherent.copy⟩, h.view_eq, h.medium, h.lasting, h.isOpen,
    h.apart⟩

theorem flush_settles {p q : Pool} {answer : Except Fault Nat} (coherent : p.Coherent)
    (h : flush p = (answer, q)) :
    Settles p q p.dirtyPages ∧ ∀ n, answer = .ok n → q.Clean := by
  have held : ∀ page ∈ p.dirtyPages, p.cached[page.id]? = some page :=
    fun page member => (coherent.filed.mem_dirtyPages_iff.mp member).2
  have ascending := coherent.filed.dirtyPages_ascending
  rw [flush_eq] at h
  cases answer with
  | error fault =>
    rcases PoolM.bind_error h with written | ⟨u, r, written, rest⟩
    · exact ⟨(forM_writeBack_settles coherent ascending held written).1,
        fun n impossible => by cases impossible⟩
    · rcases PoolM.bind_error rest with noted | ⟨v, s, noted, answered⟩
      · exact (PoolM.modify_error noted).elim
      · exact (PoolM.pure_error answered).elim
  | ok n =>
    obtain ⟨u, r, written, rest⟩ := PoolM.bind_ok h
    obtain ⟨v, s, noted, answered⟩ := PoolM.bind_ok rest
    obtain ⟨settled, cleared⟩ := forM_writeBack_settles coherent ascending held written
    obtain ⟨-, rfl⟩ := PoolM.pure_ok answered
    rw [PoolM.modify_ok noted]
    refine ⟨settled.note _, ?_⟩
    intro m same id page found
    by_cases dirty : ∃ old ∈ p.dirtyPages, old.id = id
    · obtain ⟨old, member, rfl⟩ := dirty
      rw [Pool.note, cleared u rfl old member] at found
      cases found
      rfl
    · have apart : ∀ old ∈ p.dirtyPages, old.id ≠ id := by
        intro old member here
        exact dirty ⟨old, member, here⟩
      rw [Pool.note, settled.apart id apart] at found
      cases state : page.dirty with
      | false => rfl
      | true =>
        have member := mem_dirtyPages.mpr ⟨state, id, found⟩
        exact (apart page member (coherent.filed id page found)).elim

/-- A flush is seen by no one, and one that answers leaves only clean pages. -/
theorem flush_spec {p q : Pool} {answer : Except Fault Nat} (coherent : p.Coherent)
    (h : flush p = (answer, q)) :
    q.Coherent ∧ q.view = p.view ∧ ∀ n, answer = .ok n → q.Clean := by
  obtain ⟨settled, clean⟩ := flush_settles coherent h
  exact ⟨settled.coherent, settled.view_eq, clean⟩

theorem close_flush {p q : Pool} {answer : Except Fault Unit} (h : close p = (answer, q)) :
    ∃ written r, flush p = (written, r) ∧ q.cached = r.cached ∧
      q.disk.medium = r.disk.medium ∧ (answer = .ok () → ∃ n, written = .ok n) := by
  have shut : ∀ r : Pool, r.disk.close.2.medium = r.disk.medium := by
    intro r
    unfold Disk.close
    split <;> rfl
  cases written : flush p with
  | mk result r =>
    cases result with
    | error fault =>
      rw [close, PoolM.bind_of_error written] at h
      cases h
      exact ⟨_, _, rfl, rfl, rfl, fun impossible => by cases impossible⟩
    | ok n =>
      rw [close, PoolM.bind_of_ok written] at h
      cases h
      exact ⟨_, _, rfl, rfl, shut r, fun _ => ⟨n, rfl⟩⟩

theorem view_of_same {p q : Pool} (cached : q.cached = p.cached)
    (medium : q.disk.medium = p.disk.medium) : q.view = p.view := by
  funext id
  simp only [view, cached, medium]

theorem Coherent.of_same {p q : Pool} (h : p.Coherent) (cached : q.cached = p.cached)
    (medium : q.disk.medium = p.disk.medium) : q.Coherent := by
  refine ⟨medium ▸ h.whole, ?_, ?_⟩
  · simpa only [Filed, cached] using h.filed
  · simpa only [cached, medium] using h.copy

theorem view_of_empty {p : Pool} (empty : p.cached = ∅) : p.view = p.disk.medium.block := by
  funext id
  simp only [view, empty, Std.ExtTreeMap.getElem?_empty]
  rfl

theorem coherent_of_empty {p : Pool} (whole : p.disk.medium.Whole) (empty : p.cached = ∅) :
    p.Coherent := by
  refine ⟨whole, ?_, ?_⟩
  · intro id page found
    simp [empty] at found
  · intro id page found
    simp [empty] at found

theorem dropAll_clean {p q : Pool} {answer : Except Fault Unit} (coherent : p.Coherent)
    (clean : p.Clean) (h : dropAll p = (answer, q)) : q.Coherent ∧ q.view = p.view := by
  cases h
  refine ⟨coherent_of_empty coherent.whole rfl, ?_⟩
  rw [view_of_empty rfl]
  funext id
  rw [view_of_clean coherent clean]
  rfl

theorem coherent_over {disk : Disk} (whole : disk.medium.Whole) (settings : BufferSettings) :
    (Pool.over disk settings).Coherent :=
  coherent_of_empty whole rfl

end Gazetteer.Pool
