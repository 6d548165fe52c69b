/-
Runs of a deterministic machine over an endless supply of inputs, and the
moments at which a property of a history changes.  A finite run is a prefix.
-/
import Mathlib

namespace History

universe u v

/-! ## Moments of change -/

variable {p event : ℕ → Prop} {i j : ℕ}

/-- A property that fails at `i` and holds at `j` came to hold at a last moment
`k` in between, and holds from there up to `j`. -/
theorem exists_last_rise (hij : i ≤ j) (hi : ¬ p i) (hj : p j) :
    ∃ k, i ≤ k ∧ k < j ∧ ¬ p k ∧ ∀ m, k < m → m ≤ j → p m := by
  induction j, hij using Nat.le_induction with
  | base => exact absurd hj hi
  | succ j hij ih =>
      by_cases hpj : p j
      · obtain ⟨k, hik, hkj, hk, hafter⟩ := ih hpj
        refine ⟨k, hik, Nat.lt_succ_of_lt hkj, hk, fun m hkm hmj => ?_⟩
        rcases Nat.lt_or_ge j m with hlt | hle
        · obtain rfl : m = j + 1 := by omega
          exact hj
        · exact hafter m hkm hle
      · refine ⟨j, hij, Nat.lt_succ_self j, hpj, fun m hkm hmj => ?_⟩
        obtain rfl : m = j + 1 := by omega
        exact hj

/-- A property that holds at `i` and fails at `j` was lost at some step. -/
theorem exists_fall (hij : i ≤ j) (hi : p i) (hj : ¬ p j) :
    ∃ k, i ≤ k ∧ k < j ∧ p k ∧ ¬ p (k + 1) := by
  obtain ⟨k, hik, hkj, hk, hafter⟩ :=
    exists_last_rise (p := fun k => ¬ p k) hij (not_not.mpr hi) hj
  exact ⟨k, hik, hkj, not_not.mp hk, hafter (k + 1) k.lt_succ_self hkj⟩

/-- Among the events of a bounded stretch there is a last one. -/
theorem exists_last_event (hevent : ∃ k, k < j ∧ event k) :
    ∃ k, k < j ∧ event k ∧ ∀ m, k < m → m < j → ¬ event m := by
  induction j with
  | zero =>
      obtain ⟨k, hk, -⟩ := hevent
      exact absurd hk k.not_lt_zero
  | succ j ih =>
      by_cases hj : event j
      · exact ⟨j, j.lt_succ_self, hj, fun m hjm hmj => by omega⟩
      · obtain ⟨k, hk, hek⟩ := hevent
        have hkj : k ≠ j := fun heq => hj (heq ▸ hek)
        obtain ⟨l, hl, hel, hafter⟩ := ih ⟨k, by omega, hek⟩
        refine ⟨l, by omega, hel, fun m hlm hmj => ?_⟩
        rcases Nat.lt_or_ge m j with hlt | hle
        · exact hafter m hlm hlt
        · obtain rfl : m = j := by omega
          exact hj

/-- A quantity that no step of a stretch changes is the same at both ends. -/
theorem eq_of_unchanged {α : Type u} {f : ℕ → α} (hij : i ≤ j)
    (hsame : ∀ k, i ≤ k → k < j → f (k + 1) = f k) : f j = f i := by
  induction j, hij using Nat.le_induction with
  | base => rfl
  | succ j hij ih =>
      rw [hsame j hij j.lt_succ_self]
      exact ih fun k hik hkj => hsame k hik (Nat.lt_succ_of_lt hkj)

/-! ## Runs -/

variable {σ : Type u} {ι : Type v}

/-- The state after the first `n` inputs. -/
def run (step : σ → ι → σ) (start : σ) (inputs : ℕ → ι) : ℕ → σ
  | 0 => start
  | n + 1 => step (run step start inputs n) (inputs n)

variable {step : σ → ι → σ} {start : σ} {inputs : ℕ → ι}

/-- What holds at the start and survives every step of the run holds
throughout it. -/
theorem run_invariant {inv : σ → Prop} (hstart : inv start)
    (hstep : ∀ n, inv (run step start inputs n) →
      inv (step (run step start inputs n) (inputs n))) (n : ℕ) :
    inv (run step start inputs n) := by
  induction n with
  | zero => exact hstart
  | succ n ih => exact hstep n ih

end History
