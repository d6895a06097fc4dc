import Gazetteer.Proofs.Pool.Updates
import Mathlib.Data.Finset.Card

/-! What it costs to fetch pages. A page that is kept costs nothing, and any other one call of the
disk; then it is kept, so that no page is read twice. -/
namespace Gazetteer.Pool

variable {p q r : Pool} {pages more : Finset Nat} {id : Nat}

def missing (p : Pool) (pages : Finset Nat) : Finset Nat := pages.filter fun id => id ∉ p.cached

/-- From `p` to `q` these pages were fetched, in some order and any number of times. -/
structure Fetches (p q : Pool) (pages : Finset Nat) : Prop where
  loads : Loads p q
  kept : ∀ id, id ∈ q.cached ↔ id ∈ p.cached ∨ id ∈ pages
  reads : q.diskReads = p.diskReads + (p.missing pages).card
  calls : q.disk.calls.length = p.disk.calls.length + (p.missing pages).card

theorem Fetches.refl (p : Pool) : Fetches p p ∅ where
  loads := .refl p
  kept := by simp
  reads := rfl
  calls := rfl

theorem Fetches.missing_union (h : Fetches p q pages) (more : Finset Nat) :
    (p.missing (pages ∪ more)).card = (p.missing pages).card + (q.missing more).card := by
  have apart : Disjoint (p.missing pages) (q.missing more) := by
    apply Finset.disjoint_left.mpr
    intro id early late
    obtain ⟨listed, -⟩ := Finset.mem_filter.mp early
    exact (Finset.mem_filter.mp late).2 ((h.kept id).mpr (.inr listed))
  rw [← Finset.card_union_of_disjoint apart]
  congr 1
  ext id
  simp only [missing, Finset.mem_union, Finset.mem_filter, h.kept]
  tauto

theorem Fetches.trans (h : Fetches p q pages) (k : Fetches q r more) :
    Fetches p r (pages ∪ more) where
  loads := h.loads.trans_loads k.loads
  kept := by
    intro id
    rw [k.kept, h.kept, Finset.mem_union, or_assoc]
  reads := by rw [h.missing_union, k.reads, h.reads, Nat.add_assoc]
  calls := by rw [h.missing_union, k.calls, h.calls, Nat.add_assoc]

theorem Fetches.note (h : Fetches p q pages) (e : Event) : Fetches p (q.note e) pages where
  loads := note_updates h.loads e
  kept := h.kept
  reads := h.reads
  calls := h.calls

theorem diskReads_warnOver (p : Pool) (count : Nat) :
    (p.warnOver count).diskReads = p.diskReads := by
  unfold warnOver
  split
  · rfl
  · split <;> rfl

theorem length_calls_read (d : Disk) (page : Nat) :
    (d.read page).2.calls.length = d.calls.length + 1 := by
  unfold Disk.read
  split
  · rfl
  · split <;> rfl

theorem missing_kept (kept : id ∈ p.cached) : p.missing {id} = ∅ := by
  rw [missing, Finset.filter_singleton, if_neg (not_not.mpr kept)]

theorem missing_absent (absent : id ∉ p.cached) : p.missing {id} = {id} := by
  rw [missing, Finset.filter_singleton, if_pos absent]

theorem missing_of_empty (cold : p.cached = ∅) (pages : Finset Nat) : p.missing pages = pages := by
  apply Finset.filter_true_of_mem
  intro id listed
  rw [cold]
  exact Std.ExtTreeMap.not_mem_empty

theorem load_fetches {page : Page} (absent : id ∉ p.cached) (h : p.load id = (.ok page, q)) :
    Fetches p q {id} := by
  have loads := (load_spec (Std.ExtTreeMap.getElem?_eq_none absent) h).1
  have called := length_calls_read p.disk id
  rw [load] at h
  generalize p.disk.read id = result at h called
  obtain ⟨answer, disk⟩ := result
  cases answer with
  | error fault => cases h
  | ok found =>
    cases h
    refine ⟨loads, ?_, ?_, ?_⟩
    · intro other
      rw [keep, Std.ExtTreeMap.mem_insert, cached_warnOver, Nat.compare_eq_eq, Finset.mem_singleton,
        or_comm, eq_comm]
      exact Iff.rfl
    · rw [missing_absent absent]
      simp [keep, diskReads_warnOver]
    · rw [missing_absent absent]
      simpa [keep] using called

theorem fetch_fetches {page : Page} (h : fetch id p = (.ok page, q)) : Fetches p q {id} := by
  by_cases kept : id ∈ p.cached
  · rw [fetch_of_cached (Std.ExtTreeMap.getElem?_eq_some_getElem kept)] at h
    cases h
    refine ⟨.refl p, ?_, ?_, ?_⟩
    · intro other
      rw [Finset.mem_singleton]
      constructor
      · exact Or.inl
      · rintro (before | rfl)
        · exact before
        · exact kept
    · rw [missing_kept kept]
      rfl
    · rw [missing_kept kept]
      rfl
  · rw [fetch_of_absent (Std.ExtTreeMap.getElem?_eq_none kept)] at h
    exact load_fetches kept h

end Gazetteer.Pool
