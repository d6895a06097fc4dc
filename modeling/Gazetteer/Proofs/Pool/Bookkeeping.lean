import Gazetteer.Proofs.Chain.Intact

/-! The books of a pool: which page is kept under which id, how often the disk was asked for a page,
and whether it was said that too many pages are kept. They are right behind whatever is done with
the pool, and whichever calls of the disk fail in it. -/
namespace Gazetteer

def DiskCall.isRead : DiskCall → Bool
  | .found _ | .absent _ | .unread _ => true
  | .wrote _ _ | .unwritten _ | .close => false

def Disk.readCalls (d : Disk) : Nat := d.calls.countP DiskCall.isRead

theorem Disk.readCalls_read (d : Disk) (page : Nat) :
    (d.read page).2.readCalls = d.readCalls + 1 := by
  unfold Disk.read
  split
  · exact List.countP_cons_of_pos rfl
  · split <;> exact List.countP_cons_of_pos rfl

theorem Disk.readCalls_close (d : Disk) : d.close.2.readCalls = d.readCalls := by
  unfold Disk.close
  split <;> rfl

theorem PoolM.bind_cases {α β : Type} {x : PoolM α} {f : α → PoolM β} {p q : Pool}
    {answer : Except Fault β} (h : (x >>= f) p = (answer, q)) :
    (∃ fault, x p = (.error fault, q)) ∨ ∃ a r, x p = (.ok a, r) ∧ f a r = (answer, q) := by
  cases answer with
  | error fault =>
    rcases bind_error h with failed | rest
    · exact .inl ⟨fault, failed⟩
    · exact .inr rest
  | ok b => exact .inr (bind_ok h)

namespace Pool

/-- What is done with a pool. Who fetches a page to edit it may leave it with any content, and
marked as changed or not. -/
inductive Act where
  | fetch (id : Nat)
  | edit (id : Nat) (dirty : Bool) (block : Block)
  | put (page : Page)
  | flush
  | drop
  | close

def Act.run : Act → PoolM Unit
  | .fetch id => do
    let _ ← Pool.fetch id
    return ()
  | .edit id dirty block => do
    let page ← Pool.fetch id
    modify (·.keep id { page with dirty, block })
  | .put page => putPage page
  | .flush => do
    let _ ← Pool.flush
    return ()
  | .drop => dropAll
  | .close => Pool.close

/-- The pool behind some acts, whether or not they fail, each with the calls of the disk that fail
in it. -/
def behind (p : Pool) (acts : List (FaultPlan × Act)) : Pool :=
  acts.foldl (fun p act => (act.2.run (p.failing act.1)).2) p

def warnings (p : Pool) : List Event := p.journal.filter (·.level = .warn)

/-- The warning that is due for so many pages. -/
def due (p : Pool) : List Event :=
  match p.capacityHint with
  | none => []
  | some hint => if hint < p.cached.size then [.overCapacity (hint + 1) hint] else []

/-- The books of a pool whose disk was asked for `before` pages by others. -/
structure Booked (before : Nat) (p : Pool) : Prop where
  filed : p.Filed
  reads : p.disk.readCalls = before + p.diskReads
  warned : p.capacityWarned = true ↔ ∃ hint, p.capacityHint = some hint ∧ hint < p.cached.size

/-- From `p` to `q` no page was lost, and what has become due was said. -/
structure Grows (p q : Pool) : Prop where
  hint : q.capacityHint = p.capacityHint
  size : p.cached.size ≤ q.cached.size
  said : ∃ new, q.warnings = new ++ p.warnings ∧ q.due = new ++ p.due

structure Advances (before : Nat) (p q : Pool) : Prop extends Booked before q, Grows p q

/-- From `p` to `q` the pages stay, if not what they hold. -/
structure Stays (p q : Pool) : Prop where
  filed : p.Filed → q.Filed
  reads : q.disk.readCalls + p.diskReads = p.disk.readCalls + q.diskReads
  hint : q.capacityHint = p.capacityHint
  size : q.cached.size = p.cached.size
  warned : q.capacityWarned = p.capacityWarned
  silent : q.warnings = p.warnings

variable {p q r : Pool} {before hint id : Nat} {page : Page} {pages : List Page}

theorem due_of_lt (limit : p.capacityHint = some hint) (above : hint < p.cached.size) :
    p.due = [.overCapacity (hint + 1) hint] := by
  rw [due, limit]
  exact if_pos above

theorem due_of_le (within : ∀ hint, p.capacityHint = some hint → p.cached.size ≤ hint) :
    p.due = [] := by
  cases limit : p.capacityHint with
  | none => rw [due, limit]
  | some hint =>
    rw [due, limit]
    exact if_neg (Nat.not_lt_of_le (within hint limit))

theorem due_congr (limit : q.capacityHint = p.capacityHint) (same : ∀ hint,
    p.capacityHint = some hint → (hint < q.cached.size ↔ hint < p.cached.size)) :
    q.due = p.due := by
  cases set : p.capacityHint with
  | none => simp only [due, limit, set]
  | some hint => simp only [due, limit, set, same hint set]

theorem Grows.trans (h : Grows p q) (k : Grows q r) : Grows p r where
  hint := k.hint.trans h.hint
  size := h.size.trans k.size
  said := by
    obtain ⟨early, said, due⟩ := h.said
    obtain ⟨late, said', due'⟩ := k.said
    refine ⟨late ++ early, ?_, ?_⟩
    · rw [said', said, List.append_assoc]
    · rw [due', due, List.append_assoc]

theorem Advances.trans (h : Advances before p q) (k : Advances before q r) : Advances before p r :=
  ⟨k.toBooked, h.toGrows.trans k.toGrows⟩

theorem Stays.refl (p : Pool) : Stays p p := ⟨id, rfl, rfl, rfl, rfl, rfl⟩

theorem Stays.trans (h : Stays p q) (k : Stays q r) : Stays p r where
  filed := k.filed ∘ h.filed
  reads := by
    have first := h.reads
    have second := k.reads
    omega
  hint := k.hint.trans h.hint
  size := k.size.trans h.size
  warned := k.warned.trans h.warned
  silent := k.silent.trans h.silent

theorem Booked.stays (h : Booked before p) (same : Stays p q) : Advances before p q where
  filed := same.filed h.filed
  reads := by
    have books := h.reads
    have reads := same.reads
    omega
  warned := by
    rw [same.warned, same.hint, same.size]
    exact h.warned
  hint := same.hint
  size := same.size.ge
  said := ⟨[], same.silent, due_congr same.hint fun hint _ => by rw [same.size]⟩

theorem stays_failing (p : Pool) (plan : FaultPlan) : Stays p (p.failing plan) :=
  ⟨fun filed => filed, rfl, rfl, rfl, rfl, rfl⟩

theorem size_keep (p : Pool) (id : Nat) (page : Page) :
    (p.keep id page).cached.size = if id ∈ p.cached then p.cached.size else p.cached.size + 1 :=
  Std.ExtTreeMap.size_insert

theorem stays_keep (page : Page) (there : page.id ∈ p.cached) :
    Stays p (p.keep page.id page) :=
  ⟨Filed.keep, rfl, rfl, (size_keep p page.id page).trans (if_pos there), rfl, rfl⟩

theorem stays_wrote (there : page.id ∈ p.cached) : Stays p (p.wrote page) := by
  have kept := stays_keep page.clearDirty there
  exact ⟨kept.filed, rfl, rfl, kept.size, rfl, rfl⟩

theorem stays_missed (p : Pool) (page : Page) : Stays p (p.missed page) :=
  ⟨fun filed => filed, rfl, rfl, rfl, rfl, rfl⟩

theorem forM_writeBack_stays {answer : Except Fault PUnit}
    (there : ∀ page ∈ pages, page.id ∈ p.cached) (h : pages.forM writeBack p = (answer, q)) :
    Stays p q := by
  induction pages generalizing p with
  | nil =>
    cases h
    exact .refl _
  | cons page pages ih =>
    obtain ⟨here, later⟩ := List.forall_mem_cons.mp there
    change (writeBack page >>= fun _ => pages.forM writeBack) p = _ at h
    rcases PoolM.bind_cases h with ⟨fault, failed⟩ | ⟨u, r, written, rest⟩
    · rcases writeBack_cases failed with ⟨impossible, -⟩ | ⟨-, -, rfl⟩
      · cases impossible
      · exact stays_missed p page
    · rcases writeBack_cases written with ⟨-, rfl⟩ | ⟨fault, impossible, -⟩
      · refine (stays_wrote here).trans (ih ?_ rest)
        intro other member
        exact Std.ExtTreeMap.mem_insert.mpr (.inr (later other member))
      · cases impossible

theorem flush_stays {answer : Except Fault Nat} (filed : p.Filed) (h : flush p = (answer, q)) :
    Stays p q := by
  have there : ∀ page ∈ p.dirtyPages, page.id ∈ p.cached := by
    intro page dirty
    have held := (filed.mem_dirtyPages_iff.mp dirty).2
    exact Std.ExtTreeMap.mem_iff_isSome_getElem?.mpr (held ▸ rfl)
  rw [flush_eq] at h
  rcases PoolM.bind_cases h with ⟨fault, failed⟩ | ⟨u, r, written, rest⟩
  · exact forM_writeBack_stays there failed
  · cases rest
    have same := forM_writeBack_stays there written
    exact ⟨same.filed, same.reads, same.hint, same.size, same.warned, same.silent⟩

theorem close_stays {answer : Except Fault Unit} (filed : p.Filed) (h : close p = (answer, q)) :
    Stays p q := by
  rcases PoolM.bind_cases h with ⟨fault, failed⟩ | ⟨n, r, flushed, rest⟩
  · exact flush_stays filed failed
  · cases rest
    have same := flush_stays filed flushed
    have reads := congrArg (· + p.diskReads) (Disk.readCalls_close r.disk)
    exact ⟨same.filed, reads.trans same.reads, same.hint, same.size, same.warned, same.silent⟩

theorem warnOver_silent (none : ∀ hint, p.capacityHint = some hint →
    p.capacityWarned = true ∨ p.cached.size ≤ hint) : p.warnOver p.cached.size = p := by
  unfold warnOver
  split
  · rfl
  · next hint limit =>
    apply if_neg
    rintro ⟨fresh, above⟩
    rcases none hint limit with warned | within
    · rw [fresh] at warned
      cases warned
    · exact Nat.not_lt_of_le within above

theorem warnOver_said (limit : p.capacityHint = some hint) (fresh : p.capacityWarned = false)
    (above : hint < p.cached.size) : p.warnOver p.cached.size =
      { p.note (.overCapacity p.cached.size hint) with capacityWarned := true } := by
  simp only [warnOver, limit]
  exact if_pos ⟨fresh, above⟩

theorem size_keep_bounds (p : Pool) (id : Nat) (page : Page) :
    p.cached.size ≤ (p.keep id page).cached.size ∧
      (p.keep id page).cached.size ≤ p.cached.size + 1 := by
  rw [size_keep]
  split <;> omega

theorem Booked.insert_first (h : Booked before p) (page : Page) (limit : p.capacityHint = some hint)
    (within : p.cached.size ≤ hint) (above : hint < (p.keep page.id page).cached.size) :
    Advances before p ((p.keep page.id page).warnOver (p.keep page.id page).cached.size) := by
  obtain ⟨no_less, one_more⟩ := size_keep_bounds p page.id page
  have full : (p.keep page.id page).cached.size = hint + 1 := by omega
  have fresh : p.capacityWarned = false := by
    rw [← Bool.not_eq_true, h.warned]
    rintro ⟨other, same, more⟩
    cases limit.symm.trans same
    exact Nat.not_lt_of_le within more
  have silent : p.due = [] := by
    apply due_of_le
    intro other same
    cases limit.symm.trans same
    exact within
  rw [warnOver_said (p := p.keep page.id page) limit fresh above, full]
  exact {
    filed := h.filed.keep
    reads := h.reads
    warned := iff_of_true rfl ⟨hint, limit, above⟩
    hint := rfl
    size := no_less
    said := by
      refine ⟨[.overCapacity (hint + 1) hint], List.filter_cons_of_pos rfl, ?_⟩
      rw [silent]
      exact due_of_lt limit above }

theorem Booked.insert_silent (h : Booked before p) (page : Page)
    (same : ∀ hint, p.capacityHint = some hint →
      (hint < (p.keep page.id page).cached.size ↔ hint < p.cached.size)) :
    Advances before p ((p.keep page.id page).warnOver (p.keep page.id page).cached.size) := by
  have silent : (p.keep page.id page).warnOver (p.keep page.id page).cached.size =
      p.keep page.id page := by
    apply warnOver_silent
    intro hint limit
    rcases Nat.lt_or_ge hint (p.keep page.id page).cached.size with above | within
    · exact .inl (h.warned.mpr ⟨hint, limit, (same hint limit).mp above⟩)
    · exact .inr within
  rw [silent]
  exact {
    filed := h.filed.keep
    reads := h.reads
    warned := h.warned.trans (exists_congr fun hint => and_congr_right fun limit =>
      (same hint limit).symm)
    hint := rfl
    size := (size_keep_bounds p page.id page).1
    said := ⟨[], rfl, due_congr rfl same⟩ }

theorem Booked.insert (h : Booked before p) (page : Page) :
    Advances before p ((p.keep page.id page).warnOver (p.keep page.id page).cached.size) := by
  by_cases first : ∃ hint, p.capacityHint = some hint ∧ p.cached.size ≤ hint ∧
      hint < (p.keep page.id page).cached.size
  · obtain ⟨hint, limit, within, above⟩ := first
    exact h.insert_first page limit within above
  · apply h.insert_silent page
    intro hint limit
    constructor
    · intro above
      by_contra within
      exact first ⟨hint, limit, Nat.le_of_not_lt within, above⟩
    · exact fun above => above.trans_le (size_keep_bounds p page.id page).1

theorem keep_warnOver (p : Pool) (count id : Nat) (page : Page) :
    (p.warnOver count).keep id page = (p.keep id page).warnOver count := by
  obtain ⟨disk, cached, capacityHint, diskReads, capacityWarned, journal⟩ := p
  cases capacityHint with
  | none => rfl
  | some hint =>
    by_cases first : capacityWarned = false ∧ hint < count
    · simp only [warnOver, keep, note, if_pos first]
      exact (if_pos first).symm
    · simp only [warnOver, keep, if_neg first]
      exact (if_neg first).symm

def asked (p : Pool) (id : Nat) : Pool :=
  { p.note (.cacheMiss id) with disk := (p.disk.read id).2, diskReads := p.diskReads + 1 }

theorem stays_asked (p : Pool) (id : Nat) : Stays p (p.asked id) := by
  refine ⟨fun filed => filed, ?_, rfl, rfl, rfl, List.filter_cons_of_neg Bool.false_ne_true⟩
  have counted := p.disk.readCalls_read id
  simp only [asked]
  omega

theorem load_cases {answer : Except Fault Page} (h : p.load id = (answer, q)) :
    (∃ fault, answer = .error fault ∧ q = p.asked id) ∨
    ∃ block, answer = .ok (.ofBlock id block) ∧
      q = ((p.asked id).warnOver ((p.asked id).cached.size + 1)).keep id (.ofBlock id block) := by
  rw [load] at h
  generalize call : p.disk.read id = result at h
  obtain ⟨result, disk⟩ := result
  cases result with
  | error fault =>
    cases h
    exact .inl ⟨fault, rfl, by rw [asked, call]⟩
  | ok found =>
    cases h
    exact .inr ⟨found.getD .zero, rfl, by rw [asked, call]⟩

theorem Booked.fetch (h : Booked before p) {answer : Except Fault Page}
    (fetched : Pool.fetch id p = (answer, q)) :
    Advances before p q ∧ (∀ page, answer = .ok page → page.id = id ∧ id ∈ q.cached) ∧
      ∀ fault, answer = .error fault → q.cached = p.cached := by
  by_cases there : id ∈ p.cached
  · have found := Std.ExtTreeMap.getElem?_eq_some_getElem there
    rw [fetch_of_cached found] at fetched
    cases fetched
    refine ⟨h.stays (.refl p), ?_, nofun⟩
    intro page same
    cases same
    exact ⟨h.filed id _ found, there⟩
  · rw [fetch_of_absent (Std.ExtTreeMap.getElem?_eq_none there)] at fetched
    have asked := h.stays (stays_asked p id)
    rcases load_cases fetched with ⟨fault, rfl, rfl⟩ | ⟨block, rfl, rfl⟩
    · exact ⟨asked, nofun, fun _ _ => rfl⟩
    · refine ⟨?_, ?_, nofun⟩
      · -- the page is counted before it is kept, and comes out the same
        have counted : ((p.asked id).keep id (.ofBlock id block)).cached.size =
            (p.asked id).cached.size + 1 := (size_keep _ _ _).trans (if_neg there)
        rw [keep_warnOver, ← counted]
        exact asked.trans (asked.toBooked.insert (.ofBlock id block))
      · intro page same
        cases same
        exact ⟨rfl, Std.ExtTreeMap.mem_insert_self⟩

theorem booked_of_empty (empty : p.cached = ∅) (fresh : p.capacityWarned = false)
    (reads : p.disk.readCalls = before + p.diskReads) : Booked before p := by
  refine ⟨?_, reads, ?_⟩
  · intro id page found
    simp [empty] at found
  · rw [fresh, empty, Std.ExtTreeMap.size_empty]
    exact iff_of_false Bool.false_ne_true fun ⟨hint, _, above⟩ => Nat.not_lt_zero hint above

theorem Booked.drop (h : Booked before p) {answer : Except Fault Unit}
    (dropped : dropAll p = (answer, q)) :
    Booked before q ∧ q.capacityHint = p.capacityHint ∧ q.cached.size = 0 := by
  cases dropped
  exact ⟨booked_of_empty rfl rfl h.reads, rfl, Std.ExtTreeMap.size_empty⟩

/-- Whatever is done short of dropping all pages, the books are kept and no page is lost. -/
theorem Booked.act (h : Booked before p) {act : Act} (kept : act ≠ .drop)
    {answer : Except Fault Unit} (done : act.run p = (answer, q)) : Advances before p q := by
  cases act with
  | fetch id =>
    rcases PoolM.bind_cases done with ⟨fault, failed⟩ | ⟨page, r, fetched, rest⟩
    · exact (h.fetch failed).1
    · cases rest
      exact (h.fetch fetched).1
  | edit id dirty block =>
    rcases PoolM.bind_cases done with ⟨fault, failed⟩ | ⟨page, r, fetched, rest⟩
    · exact (h.fetch failed).1
    · cases rest
      obtain ⟨books, found, -⟩ := h.fetch fetched
      obtain ⟨rfl, there⟩ := found page rfl
      exact books.trans (books.toBooked.stays (stays_keep { page with dirty, block } there))
  | put page =>
    cases done
    exact h.insert page.markDirty
  | flush =>
    rcases PoolM.bind_cases done with ⟨fault, failed⟩ | ⟨n, r, flushed, rest⟩
    · exact h.stays (flush_stays h.filed failed)
    · cases rest
      exact h.stays (flush_stays h.filed flushed)
  | drop => exact absurd rfl kept
  | close => exact h.stays (close_stays h.filed done)

theorem Booked.behind (h : Booked before p) (acts : List (FaultPlan × Act)) :
    Booked before (p.behind acts) ∧ (p.behind acts).capacityHint = p.capacityHint := by
  induction acts generalizing p with
  | nil => exact ⟨h, rfl⟩
  | cons act acts ih =>
    obtain ⟨plan, act⟩ := act
    have failing := (h.stays (stays_failing p plan)).toBooked
    by_cases dropped : act = .drop
    · subst dropped
      obtain ⟨books, hint, -⟩ := failing.drop rfl
      exact ⟨(ih books).1, (ih books).2.trans hint⟩
    · have step := failing.act dropped rfl
      exact ⟨(ih step.toBooked).1, (ih step.toBooked).2.trans step.hint⟩

theorem Booked.advances (h : Booked before p) {acts : List (FaultPlan × Act)}
    (kept : ∀ act ∈ acts, act.2 ≠ .drop) : Advances before p (p.behind acts) := by
  induction acts generalizing p with
  | nil => exact h.stays (.refl p)
  | cons act acts ih =>
    obtain ⟨plan, act⟩ := act
    obtain ⟨here, later⟩ := List.forall_mem_cons.mp kept
    have failing := h.stays (stays_failing p plan)
    have step := failing.trans (failing.toBooked.act here rfl)
    exact step.trans (ih step.toBooked later)

/-- What is warned of in some acts: of the first page that is too many, and of nothing else. -/
structure WarnsOnce (p : Pool) (acts : List (FaultPlan × Act)) : Prop where
  once : ∀ hint, p.capacityHint = some hint →
    (∃ n, hint < (p.behind (acts.take n)).cached.size) →
      (p.behind acts).warnings = .overCapacity (hint + 1) hint :: p.warnings
  never : (∀ hint, p.capacityHint = some hint →
    ∀ n, (p.behind (acts.take n)).cached.size ≤ hint) → (p.behind acts).warnings = p.warnings

theorem booked_over (disk : Disk) (settings : BufferSettings) :
    Booked disk.readCalls (Pool.over disk settings) :=
  booked_of_empty rfl rfl rfl

theorem behind_append (p : Pool) (first second : List (FaultPlan × Act)) :
    p.behind (first ++ second) = (p.behind first).behind second :=
  List.foldl_append

theorem Booked.warnsOnce (h : Booked before p) (empty : p.cached.size = 0)
    {acts : List (FaultPlan × Act)} (kept : ∀ act ∈ acts, act.2 ≠ .drop) : WarnsOnce p acts := by
  have all := h.advances kept
  obtain ⟨new, said, due⟩ := all.said
  have none_due : p.due = [] := due_of_le fun hint _ => empty ▸ Nat.zero_le hint
  rw [none_due, List.append_nil] at due
  constructor
  · rintro hint limit ⟨n, above⟩
    have rest : ∀ act ∈ acts.drop n, act.2 ≠ .drop :=
      fun act member => kept act (List.mem_of_mem_drop member)
    have later := ((h.behind (acts.take n)).1.advances rest).size
    rw [← behind_append, List.take_append_drop] at later
    rw [said, ← due, due_of_lt (all.hint.trans limit) (above.trans_le later)]
    rfl
  · intro within
    have none : (p.behind acts).due = [] := by
      apply due_of_le
      intro hint limit
      have last := within hint (all.hint.symm.trans limit) acts.length
      rwa [List.take_length] at last
    rw [said, ← due, none, List.nil_append]

theorem Booked.size_fresh (h : Booked before p) (empty : p.cached.size = 0)
    {acts : List (FaultPlan × Act)} (dropped : ∀ act ∈ acts.getLast?, act.2 = .drop) :
    (p.behind acts).cached.size = 0 := by
  rcases List.eq_nil_or_concat' acts with rfl | ⟨first, ⟨plan, act⟩, rfl⟩
  · exact empty
  · have last : act = .drop := dropped (plan, act) (by simp)
    subst last
    rw [behind_append]
    have failing := (h.behind first).1.stays (stays_failing _ plan)
    exact (failing.toBooked.drop rfl).2.2

/-- Behind any acts, whichever calls of the disk fail in them, the books of a pool are right: every
page is kept under its own id; every page that the disk was asked for is counted; a fetch that fails
keeps nothing; and it is known whether more pages are kept than the hint allows for. Further acts
lose no page until all pages are dropped, and from one time that they are dropped to the next the
first page that is too many is warned of, and nothing else. -/
theorem books_of_run (disk : Disk) (settings : BufferSettings) (acts : List (FaultPlan × Act)) :
    let p := (Pool.over disk settings).behind acts
    p.Filed ∧
    p.disk.readCalls = disk.readCalls + p.diskReads ∧
    (∀ plan id fault q, Pool.fetch id (p.failing plan) = (.error fault, q) →
      q.cached = p.cached) ∧
    p.capacityHint = settings.capacityHint.map UInt64.toNat ∧
    (p.capacityWarned = true ↔ ∃ hint, p.capacityHint = some hint ∧ hint < p.cached.size) ∧
    ∀ more, (∀ act ∈ more, act.2 ≠ .drop) →
      p.cached.size ≤ (p.behind more).cached.size ∧
      ((∀ act ∈ acts.getLast?, act.2 = .drop) → WarnsOnce p more) := by
  intro p
  have start := booked_over disk settings
  obtain ⟨books, hint⟩ := start.behind acts
  refine ⟨books.filed, books.reads, ?_, hint, books.warned, ?_⟩
  · intro plan id fault q failed
    have failing := (books.stays (stays_failing p plan)).toBooked
    exact (failing.fetch failed).2.2 fault rfl
  · intro more kept
    refine ⟨(books.advances kept).size, ?_⟩
    intro dropped
    exact books.warnsOnce (start.size_fresh Std.ExtTreeMap.size_empty dropped) kept

/-- Room for one page: behind a drop three pages are kept, one of them in vain at first. -/
theorem books_of_run_behind_drop : ∃ p q : Pool,
    p = (Pool.over .inMemory { capacityHint := some 1 }).behind [({}, .fetch 7), ({}, .drop)] ∧
    q = p.behind [({ reads := [3] }, .fetch 3), ({}, .fetch 3), ({}, .put (.blank 5)),
      ({}, .fetch 7), ({}, .put (.blank 3))] ∧
    q.cached.size = 3 ∧ q.diskReads = 4 ∧ q.disk.readCalls = 4 ∧
    q.warnings = .overCapacity 2 1 :: p.warnings := by
  refine ⟨_, _, rfl, rfl, by decide +kernel, by decide +kernel, by decide +kernel, ?_⟩
  obtain ⟨-, -, -, hint, -, further⟩ :=
    books_of_run .inMemory { capacityHint := some 1 } [({}, .fetch 7), ({}, .drop)]
  have kept : ∀ act ∈ [(({ reads := [3] } : FaultPlan), Act.fetch 3), ({}, .fetch 3),
      ({}, .put (.blank 5)), ({}, .fetch 7), ({}, .put (.blank 3))], act.2 ≠ .drop := by
    simp
  obtain ⟨-, warns⟩ := further _ kept
  exact (warns (by simp)).once 1 hint ⟨5, by decide +kernel⟩

end Pool

end Gazetteer
