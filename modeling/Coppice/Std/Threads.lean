import Coppice.Std.Machine

/-!
# Threads over a shared state

Any number of threads, each with a state of its own, act on one shared state. A turn starts a
thread or lets one thread take its next atomic step. The rule of invariants asks, for one step of
one thread, what becomes of the shared state, of the thread and of every other thread.
-/

namespace Coppice.Std

/-- A shared state and the threads that act on it, in the order they were started. -/
structure Pool (σ τ : Type) where
  shared : σ
  threads : List τ

/-- A turn of a pool: a call that starts a thread, or a step of one thread under a choice of its
environment. -/
inductive PoolTurn (κ χ : Type) where
  | start (call : κ)
  | move (index : Nat) (choice : χ)

namespace Pool

variable {σ τ κ χ : Type} {enter : κ → τ} {advance : χ → τ → σ → Option (σ × τ)} {I : σ → Prop}
  {J : τ → σ → Prop} {C : τ → τ → Prop} {pool : Pool σ τ} {index : Nat}

/-- The machine in which calls start threads and threads advance one step at a time. -/
def machine (enter : κ → τ) (advance : χ → τ → σ → Option (σ × τ)) :
    Machine (Pool σ τ) (PoolTurn κ χ)
  | .start call, pool => some { pool with threads := pool.threads ++ [enter call] }
  | .move index choice, pool =>
    (pool.threads[index]?).bind fun thread =>
      (advance choice thread pool.shared).map fun result =>
        ⟨result.1, pool.threads.set index result.2⟩

theorem machine_move {choice : χ} {pool next : Pool σ τ}
    (performed : machine enter advance (.move index choice) pool = some next) :
    ∃ thread shared thread', pool.threads[index]? = some thread ∧
      advance choice thread pool.shared = some (shared, thread') ∧
        next = ⟨shared, pool.threads.set index thread'⟩ := by
  obtain ⟨thread, found, moved⟩ := Option.bind_eq_some_iff.1 performed
  obtain ⟨⟨shared, thread'⟩, advanced, rfl⟩ := Option.map_eq_some_iff.1 moved
  exact ⟨thread, shared, thread', found, advanced, rfl⟩

/-- An invariant of the shared state, an assertion of every thread about it, and a relation between
any two threads. -/
structure Holds (I : σ → Prop) (J : τ → σ → Prop) (C : τ → τ → Prop) (pool : Pool σ τ) : Prop where
  shared : I pool.shared
  each : ∀ (index : Nat) thread, pool.threads[index]? = some thread → J thread pool.shared
  pairs : ∀ (index other : Nat) thread thread', index ≠ other → pool.threads[index]? = some thread →
    pool.threads[other]? = some thread' → C thread thread'

theorem Holds.start (holds : pool.Holds I J C) {thread : τ} (asserts : J thread pool.shared)
    (apart : ∀ other ∈ pool.threads, C thread other ∧ C other thread) :
    (⟨pool.shared, pool.threads ++ [thread]⟩ : Pool σ τ).Holds I J C := by
  have cases : ∀ (index : Nat) found, (pool.threads ++ [thread])[index]? = some found →
      pool.threads[index]? = some found ∨ index = pool.threads.length ∧ found = thread := by
    intro index found there
    rcases Nat.lt_trichotomy index pool.threads.length with before | at_ | after
    · rw [List.getElem?_append_left before] at there
      exact .inl there
    · subst at_
      rw [List.getElem?_concat_length] at there
      exact .inr ⟨rfl, (Option.some.inj there).symm⟩
    · rw [List.getElem?_eq_none (by simp; omega)] at there
      cases there
  refine ⟨holds.shared, fun index found there => ?_,
    fun index other left right differ here there => ?_⟩
  · rcases cases index found there with old | ⟨-, rfl⟩
    · exact holds.each index found old
    · exact asserts
  rcases cases index left here with oldLeft | ⟨place, rfl⟩
  · rcases cases other right there with oldRight | ⟨-, rfl⟩
    · exact holds.pairs index other left right differ oldLeft oldRight
    · exact (apart left (List.mem_of_getElem? oldLeft)).2
  · rcases cases other right there with oldRight | ⟨place', -⟩
    · exact (apart right (List.mem_of_getElem? oldRight)).1
    · exact absurd (place.trans place'.symm) differ

theorem Holds.move (holds : pool.Holds I J C) {thread thread' : τ} {shared : σ}
    (found : pool.threads[index]? = some thread) (invariant : I shared) (asserts : J thread' shared)
    (others : ∀ place other, place ≠ index → pool.threads[place]? = some other →
      J other pool.shared → C thread other → C other thread →
        J other shared ∧ C thread' other ∧ C other thread') :
    (⟨shared, pool.threads.set index thread'⟩ : Pool σ τ).Holds I J C := by
  have inside : index < pool.threads.length := (List.getElem?_eq_some_iff.1 found).1
  have other : ∀ (place : Nat) found', place ≠ index → pool.threads[place]? = some found' →
      J found' shared ∧ C thread' found' ∧ C found' thread' := by
    intro place found' differ there
    exact others place found' differ there (holds.each place found' there)
      (holds.pairs index place thread found' (Ne.symm differ) found there)
      (holds.pairs place index found' thread differ there found)
  have at_ : ∀ (place : Nat) found', (pool.threads.set index thread')[place]? = some found' →
      place = index ∧ found' = thread' ∨ place ≠ index ∧ pool.threads[place]? = some found' := by
    intro place found' there
    rw [List.getElem?_set] at there
    split at there
    · rename_i same
      exact .inl ⟨same.symm, (Option.some.inj there).symm⟩
    · rename_i differ
      exact .inr ⟨fun same => differ same.symm, there⟩
  refine ⟨invariant, fun place found' there => ?_,
    fun place place' left right differ here there => ?_⟩
  · rcases at_ place found' there with ⟨-, rfl⟩ | ⟨differ, old⟩
    · exact asserts
    · exact (other place found' differ old).1
  rcases at_ place left here with ⟨rfl, rfl⟩ | ⟨differLeft, oldLeft⟩
  · rcases at_ place' right there with ⟨rfl, -⟩ | ⟨differRight, oldRight⟩
    · exact absurd rfl differ
    · exact (other place' right differRight oldRight).2.1
  · rcases at_ place' right there with ⟨rfl, rfl⟩ | ⟨-, oldRight⟩
    · exact (other place left differLeft oldLeft).2.2
    · exact holds.pairs place place' left right differ oldLeft oldRight

end Pool
end Coppice.Std
