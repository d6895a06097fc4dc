import Gazetteer.Pool
import Gazetteer.Proofs.Disk.Whole

/-! What work between two flushes does to a pool. It reads pages, and puts new blocks in the place
of some; nothing reaches the medium. One relation says both, so that the effect of an operation
is the effect of its steps one after the other. -/
namespace Gazetteer

namespace PoolM

variable {α β : Type} {x : PoolM α} {f : α → PoolM β} {p q : Pool}

theorem bind_ok {b : β} (h : (x >>= f) p = (.ok b, q)) :
    ∃ a r, x p = (.ok a, r) ∧ f a r = (.ok b, q) := by
  change (match x p with | (answer, r) => ExceptT.bindCont f answer r) = _ at h
  cases hx : x p with
  | mk answer r =>
    rw [hx] at h
    cases answer with
    | error fault => cases h
    | ok a => exact ⟨a, r, rfl, h⟩

theorem bind_error {fault : Fault} (h : (x >>= f) p = (.error fault, q)) :
    x p = (.error fault, q) ∨ ∃ a r, x p = (.ok a, r) ∧ f a r = (.error fault, q) := by
  change (match x p with | (answer, r) => ExceptT.bindCont f answer r) = _ at h
  cases hx : x p with
  | mk answer r =>
    rw [hx] at h
    cases answer with
    | error other =>
      cases h
      exact Or.inl rfl
    | ok a => exact Or.inr ⟨a, r, rfl, h⟩

theorem bind_of_ok {a : α} {r : Pool} (h : x p = (.ok a, r)) : (x >>= f) p = f a r := by
  change (match x p with | (answer, r) => ExceptT.bindCont f answer r) = _
  rw [h]
  rfl

theorem bind_of_error {fault : Fault} (h : x p = (.error fault, q)) :
    (x >>= f) p = (.error fault, q) := by
  change (match x p with | (answer, r) => ExceptT.bindCont f answer r) = _
  rw [h]
  rfl

theorem pure_ok {a b : α} (h : (pure a : PoolM α) p = (.ok b, q)) : a = b ∧ p = q := by
  cases h
  exact ⟨rfl, rfl⟩

theorem pure_error {a : α} {fault : Fault} (h : (pure a : PoolM α) p = (.error fault, q)) : False := by
  cases h

theorem throw_ok {b : α} {fault : Fault} (h : (throw fault : PoolM α) p = (.ok b, q)) : False := by
  cases h

theorem throw_error {fault other : Fault} (h : (throw fault : PoolM α) p = (.error other, q)) :
    fault = other ∧ p = q := by
  cases h
  exact ⟨rfl, rfl⟩

theorem modify_ok {g : Pool → Pool} {u : Unit} (h : (modify g : PoolM Unit) p = (.ok u, q)) :
    q = g p := by
  cases h
  rfl

theorem modify_error {g : Pool → Pool} {fault : Fault}
    (h : (modify g : PoolM Unit) p = (.error fault, q)) : False := by
  cases h

theorem state_bind {x : StateM Pool α} {f : α → StateM Pool β} {a : α} (h : x p = (a, q)) :
    (x >>= f) p = f a q := by
  change f (x p).1 (x p).2 = f a q
  rw [h]

theorem lift_of {x : StateM Pool α} {a : α} (h : x p = (a, q)) :
    (liftM x : PoolM α) p = (.ok a, q) := by
  change (Except.ok (x p).1, (x p).2) = _
  rw [h]

theorem lift_ok {x : StateM Pool α} {a : α}
    (h : (liftM x : PoolM α) p = (.ok a, q)) : x p = (a, q) := by
  change (Except.ok (x p).1, (x p).2) = _ at h
  cases h
  rfl

theorem lift_error {x : StateM Pool α} {fault : Fault}
    (h : (liftM x : PoolM α) p = (.error fault, q)) : False := by
  change (Except.ok (x p).1, (x p).2) = _ at h
  cases h

theorem except_ok {x : Except Fault α} {answer : Except Fault α}
    (h : (liftM x : PoolM α) p = (answer, q)) : x = answer ∧ p = q := by
  cases x <;> cases h <;> exact ⟨rfl, rfl⟩

end PoolM

namespace Pool

abbrev Changes := Nat → Option Block

def unchanged : Changes := fun _ => none

def changedAt (id : Nat) (block : Block) : Changes :=
  fun other => if id = other then some block else none

/-- The later of two changes of a page counts. -/
def Changes.after (later earlier : Changes) : Changes := fun id => later id <|> earlier id

/-- From `p` to `q` some pages were read, and those with a new block hold it and are dirty. The
medium, and what becomes of its next calls, stays. -/
structure Updates (p q : Pool) (changes : Changes) : Prop where
  medium : q.disk.medium = p.disk.medium
  isOpen : q.disk.isOpen = p.disk.isOpen
  plan : q.disk.plan = p.disk.plan
  changed : ∀ id block, changes id = some block → q.cached[id]? = some ⟨id, true, block⟩
  kept : ∀ id page, changes id = none → p.cached[id]? = some page → q.cached[id]? = some page
  fresh : ∀ id page, changes id = none → p.cached[id]? = none → q.cached[id]? = some page →
    page = .ofBlock id (p.disk.medium.block id)

/-- From `p` to `q` some pages were read, and nothing else happened to any page. -/
abbrev Loads (p q : Pool) : Prop := Updates p q unchanged

def Filed (p : Pool) : Prop :=
  ∀ (id : Nat) (page : Page), p.cached[id]? = some page → page.id = id

theorem Filed.keep {p : Pool} {page : Page} (h : p.Filed) : (p.keep page.id page).Filed := by
  intro id other found
  simp only [Pool.keep, Std.ExtTreeMap.getElem?_insert, Nat.compare_eq_eq] at found
  split at found
  · next same =>
    cases found
    exact same
  · exact h id other found

theorem Updates.filed {p q : Pool} {changes : Changes} (h : Updates p q changes)
    (filed : p.Filed) : q.Filed := by
  intro id page found
  cases changed : changes id with
  | some block =>
    rw [h.changed id block changed] at found
    cases found
    rfl
  | none =>
    cases before : p.cached[id]? with
    | none =>
      rw [h.fresh id page changed before found]
      rfl
    | some old =>
      rw [h.kept id old changed before] at found
      cases found
      exact filed id page before

theorem Updates.refl (p : Pool) : Loads p p where
  medium := rfl
  isOpen := rfl
  plan := rfl
  changed := by intro id block changed; cases changed
  kept := fun _ _ _ found => found
  fresh := by
    intro id page _ absent found
    rw [absent] at found
    cases found

theorem Changes.after_eq_none {later earlier : Changes} {id : Nat} :
    later.after earlier id = none ↔ later id = none ∧ earlier id = none := by
  simp [Changes.after]

@[simp] theorem after_unchanged (changes : Changes) : changes.after unchanged = changes := by
  funext id
  simp [Changes.after, unchanged]

@[simp] theorem unchanged_after (changes : Changes) :
    Changes.after unchanged changes = changes := by
  funext id
  simp [Changes.after, unchanged]

theorem Updates.trans {p q r : Pool} {earlier later : Changes} (first : Updates p q earlier)
    (second : Updates q r later) : Updates p r (later.after earlier) where
  medium := second.medium.trans first.medium
  isOpen := second.isOpen.trans first.isOpen
  plan := second.plan.trans first.plan
  changed := by
    intro id block changed
    cases last : later id with
    | some newer =>
      rw [Changes.after, last] at changed
      cases changed
      exact second.changed id _ last
    | none =>
      rw [Changes.after, last] at changed
      exact second.kept id _ last (first.changed id block changed)
  kept := by
    intro id page same found
    obtain ⟨late, early⟩ := Changes.after_eq_none.mp same
    exact second.kept id page late (first.kept id page early found)
  fresh := by
    intro id page same absent found
    obtain ⟨late, early⟩ := Changes.after_eq_none.mp same
    cases between : q.cached[id]? with
    | none =>
      rw [← first.medium]
      exact second.fresh id page late between found
    | some loaded =>
      rw [second.kept id loaded late between] at found
      cases found
      exact first.fresh id page early absent between

theorem Updates.trans_loads {p q r : Pool} {changes : Changes} (first : Updates p q changes)
    (second : Loads q r) : Updates p r changes := by
  simpa using first.trans second

theorem Updates.after_loads {p q r : Pool} {changes : Changes} (first : Loads p q)
    (second : Updates q r changes) : Updates p r changes := by
  simpa using first.trans second

theorem Updates.view_eq {p q : Pool} {changes : Changes} (h : Updates p q changes) (id : Nat) :
    q.view id = (changes id).getD (p.view id) := by
  cases changed : changes id with
  | some block =>
    rw [view, h.changed id block changed]
    rfl
  | none =>
    cases before : p.cached[id]? with
    | some page =>
      rw [view, view, before, h.kept id page changed before]
      rfl
    | none =>
      cases after : q.cached[id]? with
      | none =>
        rw [view, view, before, after, h.medium]
        rfl
      | some page =>
        rw [view, view, before, after, h.fresh id page changed before after]
        rfl

theorem Loads.view_eq {p q : Pool} (h : Loads p q) : q.view = p.view := by
  funext id
  exact Updates.view_eq h id

@[simp] theorem disk_warnOver (p : Pool) (count : Nat) : (p.warnOver count).disk = p.disk := by
  unfold warnOver
  split
  · rfl
  · split <;> rfl

theorem read_disk (d : Disk) (page : Nat) :
    (d.read page).2.medium = d.medium ∧ (d.read page).2.isOpen = d.isOpen ∧
      (d.read page).2.plan = d.plan := by
  unfold Disk.read
  split
  · exact ⟨rfl, rfl, rfl⟩
  · split <;> exact ⟨rfl, rfl, rfl⟩

theorem read_ok {d : Disk} {page : Nat} {found : Option Block} (h : (d.read page).1 = .ok found) :
    found.getD .zero = d.medium.block page := by
  unfold Disk.read at h
  split at h
  · cases h
  · split at h
    · next block there =>
      cases h
      rw [Medium.block, there]
    · next absent =>
      cases h
      rw [Medium.block, absent]

theorem load_spec {p q : Pool} {id : Nat} {answer : Except Fault Page}
    (absent : p.cached[id]? = none) (h : p.load id = (answer, q)) :
    Loads p q ∧ ∀ page, answer = .ok page →
      q.cached[id]? = some page ∧ page.block = p.view id := by
  have disk := read_disk p.disk id
  rw [load] at h
  generalize call : p.disk.read id = result at h disk
  obtain ⟨result, after⟩ := result
  cases result with
  | error fault =>
    cases h
    refine ⟨⟨disk.1, disk.2.1, disk.2.2, ?_, ?_, ?_⟩, ?_⟩
    · intro other block changed
      cases changed
    · intro other page _ found
      exact found
    · intro other page _ none found
      rw [note, none] at found
      cases found
    · intro page impossible
      cases impossible
  | ok found =>
    have block := read_ok (congrArg Prod.fst call)
    cases h
    refine ⟨⟨?_, ?_, ?_, ?_, ?_, ?_⟩, ?_⟩
    · simpa [keep, note] using disk.1
    · simpa [keep, note] using disk.2.1
    · simpa [keep, note] using disk.2.2
    · intro other block changed
      cases changed
    · intro other page _ found
      have apart : id ≠ other := by
        rintro rfl
        rw [absent] at found
        cases found
      simpa [keep, note, Std.ExtTreeMap.getElem?_insert, apart] using found
    · intro other page _ none found
      by_cases same : id = other
      · subst same
        simp only [keep, Std.ExtTreeMap.getElem?_insert_self, Option.some.injEq] at found
        rw [← found, block]
      · rw [keep, Std.ExtTreeMap.getElem?_insert, if_neg (by simpa using same),
          cached_warnOver, note, none] at found
        cases found
    · intro page answered
      cases answered
      refine ⟨by simp [keep], ?_⟩
      rw [view, absent, Page.ofBlock, block]
      rfl

theorem fetch_spec {p q : Pool} {id : Nat} {answer : Except Fault Page}
    (h : fetch id p = (answer, q)) :
    Loads p q ∧ ∀ page, answer = .ok page →
      q.cached[id]? = some page ∧ page.block = p.view id := by
  cases found : p.cached[id]? with
  | none =>
    rw [fetch_of_absent found] at h
    exact load_spec found h
  | some page =>
    rw [fetch_of_cached found] at h
    cases h
    refine ⟨.refl p, ?_⟩
    intro same answered
    cases answered
    refine ⟨found, ?_⟩
    rw [view, found]

theorem fetch_loads {p q : Pool} {id : Nat} {answer : Except Fault Page}
    (h : fetch id p = (answer, q)) : Loads p q :=
  (fetch_spec h).1

end Pool

/-- Work that only reads pages, whether it answers or fails. -/
def PoolM.Reads {α : Type} (x : PoolM α) : Prop :=
  ∀ (p : Pool) (answer : Except Fault α) (q : Pool), x p = (answer, q) → Pool.Loads p q

namespace PoolM.Reads

variable {α β : Type}

theorem pure (a : α) : Reads (Pure.pure a) := by
  intro p answer q h
  cases h
  exact .refl p

theorem throw (fault : Fault) : Reads (α := α) (MonadExcept.throw fault) := by
  intro p answer q h
  cases h
  exact .refl p

theorem bind {x : PoolM α} {f : α → PoolM β} (first : Reads x) (later : ∀ a, Reads (f a)) :
    Reads (x >>= f) := by
  intro p answer q h
  cases answer with
  | error fault =>
    rcases bind_error h with failed | ⟨a, r, answered, rest⟩
    · exact first p _ q failed
    · exact (first p _ r answered).trans_loads (later a r _ q rest)
  | ok b =>
    obtain ⟨a, r, answered, rest⟩ := bind_ok h
    exact (first p _ r answered).trans_loads (later a r _ q rest)

theorem except (x : Except Fault α) : Reads (liftM x) := by
  intro p answer q h
  obtain ⟨-, rfl⟩ := except_ok h
  exact .refl p

theorem lift {x : StateM Pool α} (loads : ∀ p a q, x p = (a, q) → Pool.Loads p q) :
    Reads (liftM x) := by
  intro p answer q h
  cases answer with
  | error fault => exact (lift_error h).elim
  | ok a => exact loads p a q (lift_ok h)

theorem fetch (id : Nat) : Reads (Pool.fetch id) := fun _ _ _ h => Pool.fetch_loads h

end PoolM.Reads

namespace Pool

structure Readable (p : Pool) : Prop where
  isOpen : p.disk.isOpen = true
  planned : p.disk.plan.reads = []

theorem Updates.readable {p q : Pool} {changes : Changes} (h : Updates p q changes)
    (readable : p.Readable) : q.Readable :=
  ⟨h.isOpen.trans readable.isOpen, (congrArg FaultPlan.reads h.plan).trans readable.planned⟩

theorem fetch_readable {p q : Pool} {id : Nat} {fault : Fault} (readable : p.Readable)
    (h : fetch id p = (.error fault, q)) : False := by
  have safe : p.disk.readFault? id = none := by
    simp [Disk.readFault?, readable.planned, readable.isOpen]
  cases found : p.cached[id]? with
  | some page =>
    rw [fetch_of_cached found] at h
    cases h
  | none =>
    rw [fetch_of_absent found, load, Disk.read, safe] at h
    cases there : p.disk.medium.read? id with
    | none =>
      simp only [there] at h
      cases h
    | some block =>
      simp only [there] at h
      cases h

theorem fetch_answers {p : Pool} (readable : p.Readable) (id : Nat) :
    ∃ page q, fetch id p = (.ok page, q) := by
  cases h : fetch id p with
  | mk answer q =>
    cases answer with
    | error fault => exact (fetch_readable readable h).elim
    | ok page => exact ⟨page, q, rfl⟩

theorem keep_updates (p : Pool) (id : Nat) (block : Block) :
    Updates p (p.keep id ⟨id, true, block⟩) (changedAt id block) where
  medium := rfl
  isOpen := rfl
  plan := rfl
  changed := by
    intro other new changed
    unfold changedAt at changed
    split at changed
    · next same =>
      subst same
      cases changed
      simp [keep]
    · cases changed
  kept := by
    intro other page same found
    unfold changedAt at same
    split at same
    · cases same
    · next apart => simpa [keep, Std.ExtTreeMap.getElem?_insert, apart] using found
  fresh := by
    intro other page same absent found
    unfold changedAt at same
    split at same
    · cases same
    · next apart =>
      rw [keep, Std.ExtTreeMap.getElem?_insert, if_neg (by simpa using apart), absent] at found
      cases found

theorem note_updates {p q : Pool} {changes : Changes} (h : Updates p q changes) (e : Event) :
    Updates p (q.note e) changes where
  medium := h.medium
  isOpen := h.isOpen
  plan := h.plan
  changed := h.changed
  kept := h.kept
  fresh := h.fresh

end Pool

theorem PoolM.Reads.note (e : Event) : Reads (modify (·.note e)) := by
  intro p answer q h
  cases h
  exact Pool.note_updates (.refl p) e

end Gazetteer
