import Gazetteer.Proofs.Pool.Flush

/-! Two runs of one piece of work, on pools that have something in common. What they have in common
is a relation between pools; when fetching, keeping and noting respect it, so does all work that is
made of these, and its answers agree. Reads may fail on either side, unless the runs are calm. -/
namespace Gazetteer.PoolM

variable {α β γ δ : Type} {calm : Prop} {S : Pool → Pool → Prop} {R : α → β → Prop}
  {T : γ → δ → Prop} {x : PoolM α} {y : PoolM β} {f : α → PoolM γ} {g : β → PoolM δ}

/-- Two runs end alike: with answers that agree, or with the same fault. A run that was disturbed
may also stop on its own. -/
inductive Ended (calm : Prop) (S : Pool → Pool → Prop) (R : α → β → Prop) :
    Except Fault α × Pool → Except Fault β × Pool → Prop where
  | answered {a : α} {b : β} {p q : Pool} (agree : R a b) (alike : S p q) :
      Ended calm S R (.ok a, p) (.ok b, q)
  | failed {fault : Fault} {p q : Pool} (alike : S p q) :
      Ended calm S R (.error fault, p) (.error fault, q)
  | stopped {fault : Fault} {p : Pool} {other : Except Fault β × Pool} (disturbed : ¬ calm) :
      Ended calm S R (.error fault, p) other
  | stopped_other {fault : Fault} {q : Pool} {other : Except Fault α × Pool} (disturbed : ¬ calm) :
      Ended calm S R other (.error fault, q)

def Agree (calm : Prop) (S : Pool → Pool → Prop) (R : α → β → Prop) (x : PoolM α) (y : PoolM β) :
    Prop :=
  ∀ p q, S p q → Ended calm S R (x p) (y q)

namespace Agree

theorem pure {a : α} {b : β} (agree : R a b) : Agree calm S R (Pure.pure a) (Pure.pure b) :=
  fun _ _ alike => .answered agree alike

theorem throw (fault : Fault) :
    Agree calm S R (MonadExcept.throw fault) (MonadExcept.throw fault) :=
  fun _ _ alike => .failed alike

theorem except (x : Except Fault α) :
    Agree calm S (fun a b => a = b ∧ x = .ok a) (liftM x) (liftM x) := by
  intro p q alike
  cases x with
  | error fault => exact .failed alike
  | ok a => exact .answered ⟨rfl, rfl⟩ alike

theorem modify {before after : Pool → Pool} (keeps : ∀ p q, S p q → S (before p) (after q)) :
    Agree calm S (fun _ _ => True) (modify before) (modify after) :=
  fun p q alike => .answered trivial (keeps p q alike)

theorem bind (first : Agree calm S R x y) (later : ∀ a b, R a b → Agree calm S T (f a) (g b)) :
    Agree calm S T (x >>= f) (y >>= g) := by
  intro p q alike
  have ended := first p q alike
  generalize hx : x p = left at ended
  generalize hy : y q = right at ended
  cases ended with
  | answered agree after =>
    rw [bind_of_ok hx, bind_of_ok hy]
    exact later _ _ agree _ _ after
  | failed after =>
    rw [bind_of_error hx, bind_of_error hy]
    exact .failed after
  | stopped disturbed =>
    rw [bind_of_error hx]
    exact .stopped disturbed
  | stopped_other disturbed =>
    rw [bind_of_error hy]
    exact .stopped_other disturbed

theorem mono {U : α → β → Prop} (h : Agree calm S R x y) (weaker : ∀ a b, R a b → U a b) :
    Agree calm S U x y := by
  intro p q alike
  have ended := h p q alike
  generalize x p = left at ended ⊢
  generalize y q = right at ended ⊢
  cases ended with
  | answered agree after => exact .answered (weaker _ _ agree) after
  | failed after => exact .failed after
  | stopped disturbed => exact .stopped disturbed
  | stopped_other disturbed => exact .stopped_other disturbed

theorem of_ok {p q r s : Pool} {a : α} {b : β} (h : Agree calm S R x y) (alike : S p q)
    (left : x p = (.ok a, r)) (right : y q = (.ok b, s)) : R a b ∧ S r s := by
  have ended := h p q alike
  rw [left, right] at ended
  cases ended with
  | answered agree after => exact ⟨agree, after⟩

theorem of_calm {p q : Pool} {z : PoolM α} {w : PoolM α} (h : Agree True S Eq z w)
    (alike : S p q) : (z p).1 = (w q).1 ∧ S (z p).2 (w q).2 := by
  have ended := h p q alike
  generalize z p = left at ended
  generalize w q = right at ended
  cases ended with
  | answered agree after => exact ⟨congrArg Except.ok agree, after⟩
  | failed after => exact ⟨rfl, after⟩
  | stopped disturbed => exact (disturbed trivial).elim
  | stopped_other disturbed => exact (disturbed trivial).elim

end Agree

end Gazetteer.PoolM

namespace Gazetteer

/-- The page of an id on two sides. One may be dirty where the other is not. -/
structure Page.Alike (id : Nat) (a b : Page) : Prop where
  left : a.id = id
  right : b.id = id
  block : a.block = b.block

theorem Page.Alike.format {id : Nat} {a b : Page} (h : Alike id a b) : a.format = b.format := by
  simp only [Page.format, h.left, h.right, h.block]

theorem Page.Alike.push {id : Nat} {a b : Page} (h : Alike id a b) (value : List UInt8) :
    a.push value = b.push value := by
  simp only [Page.push, h.left, h.right, h.block]

theorem Page.Alike.setLink {id : Nat} {a b : Page} (h : Alike id a b) (target : Option Nat) :
    a.setLink target = b.setLink target := by
  simp only [Page.setLink, h.left, h.right, h.block]

theorem Page.setLink_ok {page linked : Page} {target : Option Nat}
    (h : page.setLink target = .ok linked) : linked.id = page.id ∧ linked.dirty = true := by
  unfold Page.setLink at h
  split at h
  · cases h
    exact ⟨rfl, rfl⟩
  · split at h
    · cases h
      exact ⟨rfl, rfl⟩
    · cases h

/-- What work on pages cannot tell apart: fetching gives the same blocks, and stays so when both
sides keep the same dirty page, note the same event, or count their pages. -/
structure Pool.Simulation (calm : Prop) (S : Pool → Pool → Prop) : Prop where
  fetch : ∀ id, PoolM.Agree calm S (Page.Alike id) (Pool.fetch id) (Pool.fetch id)
  keep : ∀ {p q : Pool} (page : Page), page.dirty = true → S p q →
    S (p.keep page.id page) (q.keep page.id page)
  note : ∀ {p q : Pool} (e : Event), S p q → S (p.note e) (q.note e)
  count : ∀ {p q : Pool}, S p q → S (p.warnOver p.cached.size) (q.warnOver q.cached.size)

namespace Pool

/-- Both sides show the same blocks, whatever is kept, and whatever is dirty. -/
structure Alike (calm : Prop) (p q : Pool) : Prop where
  view_eq : p.view = q.view
  left : p.Filed
  right : q.Filed
  readable : calm → p.Readable ∧ q.Readable

theorem Alike.of_loads {calm : Prop} {p q r s : Pool} (h : Alike calm p q) (left : Loads p r)
    (right : Loads q s) : Alike calm r s where
  view_eq := left.view_eq.trans (h.view_eq.trans right.view_eq.symm)
  left := left.filed h.left
  right := right.filed h.right
  readable quiet := ⟨left.readable (h.readable quiet).1, right.readable (h.readable quiet).2⟩

theorem Readable.of_disk {p q : Pool} (h : p.Readable) (disk : q.disk = p.disk) : q.Readable :=
  ⟨disk ▸ h.isOpen, disk ▸ h.planned⟩

theorem Alike.of_same {calm : Prop} {p q r s : Pool} (h : Alike calm p q)
    (left : r.cached = p.cached ∧ r.disk = p.disk) (right : s.cached = q.cached ∧ s.disk = q.disk) :
    Alike calm r s where
  view_eq := by
    rw [view_of_same left.1 (congrArg Disk.medium left.2), h.view_eq,
      view_of_same right.1 (congrArg Disk.medium right.2)]
  left := by simpa only [Filed, left.1] using h.left
  right := by simpa only [Filed, right.1] using h.right
  readable quiet :=
    ⟨(h.readable quiet).1.of_disk left.2, (h.readable quiet).2.of_disk right.2⟩

theorem simulation_alike (calm : Prop) : Simulation calm (Alike calm) where
  fetch := by
    intro id p q alike
    cases left : fetch id p with
    | mk answer r =>
      cases right : fetch id q with
      | mk other s =>
        obtain ⟨loaded, found⟩ := fetch_spec left
        obtain ⟨loaded', found'⟩ := fetch_spec right
        cases answer with
        | error fault => exact .stopped fun quiet => fetch_readable (alike.readable quiet).1 left
        | ok a =>
          cases other with
          | error fault =>
            exact .stopped_other fun quiet => fetch_readable (alike.readable quiet).2 right
          | ok b =>
            have after := alike.of_loads loaded loaded'
            obtain ⟨held, block⟩ := found a rfl
            obtain ⟨held', block'⟩ := found' b rfl
            rw [alike.view_eq, ← block'] at block
            exact .answered ⟨after.left id a held, after.right id b held', block⟩ after
  keep := by
    intro p q page _ alike
    refine ⟨?_, alike.left.keep, alike.right.keep, fun quiet => ?_⟩
    · funext id
      rw [view_keep, view_keep, alike.view_eq]
    · obtain ⟨left, right⟩ := alike.readable quiet
      exact ⟨left.of_disk rfl, right.of_disk rfl⟩
  note e alike := alike.of_same ⟨rfl, rfl⟩ ⟨rfl, rfl⟩
  count alike := alike.of_same ⟨cached_warnOver .., disk_warnOver ..⟩
    ⟨cached_warnOver .., disk_warnOver ..⟩

/-- What loading, keeping and noting leave true stays true under all work on pages. -/
theorem simulation_same {I : Pool → Prop} (loads : ∀ p q, Loads p q → I p → I q)
    (keep : ∀ p (page : Page), page.dirty = true → I p → I (p.keep page.id page))
    (same : ∀ p q : Pool, q.cached = p.cached → q.disk = p.disk → I p → I q) :
    Simulation True fun p q => p = q ∧ p.Filed ∧ I p where
  fetch := by
    rintro id p _ ⟨rfl, filed, holds⟩
    cases fetched : fetch id p with
    | mk answer q =>
      obtain ⟨loaded, found⟩ := fetch_spec fetched
      have after : q = q ∧ q.Filed ∧ I q := ⟨rfl, loaded.filed filed, loads p q loaded holds⟩
      cases answer with
      | error fault => exact .failed after
      | ok page =>
        have own := after.2.1 id page (found page rfl).1
        exact .answered ⟨own, own, rfl⟩ after
  keep := by
    rintro p _ page dirty ⟨rfl, filed, holds⟩
    exact ⟨rfl, filed.keep, keep p page dirty holds⟩
  note := by
    rintro p _ e ⟨rfl, filed, holds⟩
    exact ⟨rfl, filed, same p _ rfl rfl holds⟩
  count := by
    rintro p _ ⟨rfl, filed, holds⟩
    refine ⟨rfl, ?_, same p _ (cached_warnOver ..) (disk_warnOver ..) holds⟩
    simpa only [Filed, cached_warnOver] using filed

end Pool

end Gazetteer
