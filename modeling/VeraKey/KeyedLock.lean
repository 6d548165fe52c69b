/-
Jobs that hold a key while they run: at most one running job for each key.
-/
import Mathlib

universe u v

/-- The held keys and the running jobs: each running job holds its key, and no two hold
the same one. -/
structure KeyedLock {α : Type u} {κ : Type v} (key : α → κ) where
  held : Finset κ
  running : List α
  mem_held : ∀ k, k ∈ held ↔ k ∈ running.map key
  nodup_keys : (running.map key).Nodup

namespace KeyedLock

variable {α : Type u} {κ : Type v} {key : α → κ}

/-- No job is running. -/
def idle : KeyedLock key where
  held := ∅
  running := []
  mem_held := by simp
  nodup_keys := List.nodup_nil

variable [DecidableEq κ]

/-- A job starts, unless its key is held. -/
def acquire (lock : KeyedLock key) (job : α) : Option (KeyedLock key) :=
  if hheld : key job ∈ lock.held then none
  else some {
    held := insert (key job) lock.held
    running := job :: lock.running
    mem_held := by
      intro k
      rw [Finset.mem_insert, lock.mem_held, List.map_cons, List.mem_cons]
    nodup_keys := by
      rw [List.map_cons, List.nodup_cons, ← lock.mem_held]
      exact ⟨hheld, lock.nodup_keys⟩ }

theorem running_acquire {lock lock' : KeyedLock key} {job : α}
    (hacquire : lock.acquire job = some lock') : lock'.running = job :: lock.running := by
  by_cases hheld : key job ∈ lock.held
  · simp [acquire, hheld] at hacquire
  · simp only [acquire, hheld, ↓reduceDIte, Option.some.injEq] at hacquire
    rw [← hacquire]

variable [DecidableEq α]

/-- A running job ends and frees its key. -/
def release (lock : KeyedLock key) (job : α) : KeyedLock key :=
  if hrunning : job ∈ lock.running then
    have hperm : (lock.running.map key).Perm (key job :: (lock.running.erase job).map key) :=
      (List.perm_cons_erase hrunning).map key
    have hnodup : (key job :: (lock.running.erase job).map key).Nodup :=
      hperm.nodup_iff.mp lock.nodup_keys
    { held := lock.held.erase (key job)
      running := lock.running.erase job
      mem_held := by
        intro k
        rw [Finset.mem_erase, lock.mem_held, hperm.mem_iff, List.mem_cons]
        constructor
        · intro hk
          exact hk.2.resolve_left hk.1
        · intro hk
          refine ⟨?_, Or.inr hk⟩
          intro heq
          exact (List.nodup_cons.mp hnodup).1 (heq ▸ hk)
      nodup_keys := (List.nodup_cons.mp hnodup).2 }
  else lock

theorem mem_running_of_release {lock : KeyedLock key} {job other : α}
    (hother : other ∈ (lock.release job).running) : other ∈ lock.running := by
  by_cases hrunning : job ∈ lock.running
  · simp only [release, hrunning, ↓reduceDIte] at hother
    exact List.mem_of_mem_erase hother
  · simpa only [release, hrunning, ↓reduceDIte] using hother

end KeyedLock
