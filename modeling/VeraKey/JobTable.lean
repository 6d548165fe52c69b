/-
Jobs numbered in the order in which they start, each in a state of its own.  Time or other
jobs may come between two steps of one job, so what a job is about to do is what its state
says.
-/
import Mathlib

universe u

/-- The jobs that have started.  No job has a number that was not given out. -/
structure JobTable (τ : Type u) where
  job? : ℕ → Option τ
  started : ℕ
  unnumbered : ∀ number, started ≤ number → job? number = none

namespace JobTable

variable {τ : Type u}

def empty : JobTable τ where
  job? := fun _ => none
  started := 0
  unnumbered := fun _ _ => rfl

/-- A job starts. -/
def start (table : JobTable τ) (job : τ) : JobTable τ where
  job? := Function.update table.job? table.started (some job)
  started := table.started + 1
  unnumbered := by
    intro number hle
    rw [Function.update_of_ne (Nat.ne_of_gt hle)]
    exact table.unnumbered number (Nat.le_of_succ_le hle)

/-- A job that has started is in another state. -/
def set (table : JobTable τ) (number : ℕ) (job : τ) : JobTable τ where
  job? := Function.update table.job? number ((table.job? number).map fun _ => job)
  started := table.started
  unnumbered := by
    intro other hle
    by_cases hother : other = number
    · subst hother
      rw [Function.update_self, table.unnumbered other hle]
      rfl
    · rw [Function.update_of_ne hother]
      exact table.unnumbered other hle

variable {table : JobTable τ} {job job' : τ} {number other : ℕ}

theorem lt_started (hjob : table.job? number = some job) : number < table.started := by
  by_contra hle
  rw [table.unnumbered number (Nat.le_of_not_lt hle)] at hjob
  contradiction

theorem job?_start : (table.start job).job? number = some job' ↔
    (number = table.started ∧ job' = job) ∨ table.job? number = some job' := by
  have hnew := table.unnumbered table.started le_rfl
  by_cases hnumber : number = table.started
  · subst hnumber
    simp [start, hnew, eq_comm]
  · simp [start, hnumber]

theorem job?_start_of_ne (hother : other ≠ table.started) :
    (table.start job).job? other = table.job? other :=
  Function.update_of_ne hother _ _

theorem job?_set (hjob : table.job? number = some job) :
    (table.set number job').job? = Function.update table.job? number (some job') := by
  change Function.update table.job? number ((table.job? number).map fun _ => job') = _
  rw [hjob]
  rfl

theorem job?_set_self (hjob : table.job? number = some job) :
    (table.set number job').job? number = some job' := by
  rw [job?_set hjob, Function.update_self]

theorem job?_set_of_ne (hother : other ≠ number) :
    (table.set number job').job? other = table.job? other :=
  Function.update_of_ne hother _ _

end JobTable
