import Gazetteer.Proofs.Pool.Updates
import Mathlib.Logic.Function.Basic

/-! What work on pages comes to while no read fails: an answer or a fault, and what the pages show
behind it. Both hang on nothing but what the pages showed before, so the steps of such work are put
together here without a word about which pages are kept, or dirty. -/
namespace Gazetteer

variable {α β : Type} {p : Pool} {view after : Nat → Block}

theorem Pool.fetch_shows (readable : p.Readable) (id : Nat) :
    ∃ (page : Page) (q : Pool), fetch id p = (.ok page, q) ∧ page.block = p.view id ∧
      q.Readable ∧ q.view = p.view := by
  obtain ⟨page, q, fetched⟩ := fetch_answers readable id
  obtain ⟨loaded, found⟩ := fetch_spec fetched
  exact ⟨page, q, fetched, (found page rfl).2, loaded.readable readable, loaded.view_eq⟩

/-- The work ends with `answer`, and the pages show `after`. -/
def PoolM.Yields (x : PoolM α) (p : Pool) (answer : Except Fault α) (after : Nat → Block) : Prop :=
  ∃ q : Pool, x p = (answer, q) ∧ q.Readable ∧ q.view = after

namespace PoolM.Yields

theorem pure (readable : p.Readable) (a : α) : Yields (Pure.pure a) p (.ok a) p.view :=
  ⟨p, rfl, readable, rfl⟩

theorem throw (readable : p.Readable) (fault : Fault) :
    Yields (α := α) (MonadExcept.throw fault) p (.error fault) p.view :=
  ⟨p, rfl, readable, rfl⟩

theorem behind {x : PoolM α} {f : α → PoolM β} {a : α} {q : Pool} {answer : Except Fault β}
    (first : x p = (.ok a, q)) (rest : Yields (f a) q answer after) :
    Yields (x >>= f) p answer after := by
  obtain ⟨r, ended, shown⟩ := rest
  exact ⟨r, (bind_of_ok first).trans ended, shown⟩

theorem bind {x : PoolM α} {f : α → PoolM β} {a : α} {answer : Except Fault β}
    (first : Yields x p (.ok a) view)
    (later : ∀ q : Pool, q.Readable → q.view = view → Yields (f a) q answer after) :
    Yields (x >>= f) p answer after := by
  obtain ⟨q, answered, readable, shown⟩ := first
  exact behind answered (later q readable shown)

theorem bind_error {x : PoolM α} {f : α → PoolM β} {fault : Fault}
    (failed : Yields x p (.error fault) after) : Yields (x >>= f) p (.error fault) after := by
  obtain ⟨q, stopped, rest⟩ := failed
  exact ⟨q, bind_of_error stopped, rest⟩

theorem fetch_bind (readable : p.Readable) (id : Nat) {f : Page → PoolM β}
    {answer : Except Fault β}
    (later : ∀ (page : Page) (q : Pool), page.block = p.view id → q.Readable → q.view = p.view →
      Yields (f page) q answer after) : Yields (Pool.fetch id >>= f) p answer after := by
  obtain ⟨page, q, fetched, block, ready, same⟩ := Pool.fetch_shows readable id
  exact behind fetched (later page q block ready same)

theorem keep (readable : p.Readable) (id : Nat) (page : Page) :
    Yields (modify (·.keep id page)) p (.ok ()) (Function.update p.view id page.block) := by
  refine ⟨p.keep id page, rfl, ⟨readable.isOpen, readable.planned⟩, ?_⟩
  funext other
  rw [Pool.view_keep, Function.update_apply]
  simp only [eq_comm]

theorem keep_note (readable : p.Readable) (id : Nat) (page : Page) (e : Event) :
    Yields (modify fun p => (p.keep id page).note e) p (.ok ())
      (Function.update p.view id page.block) := by
  obtain ⟨q, kept, ready, shown⟩ := keep readable id page
  cases kept
  exact ⟨_, rfl, ⟨ready.isOpen, ready.planned⟩, shown⟩

end PoolM.Yields

end Gazetteer
