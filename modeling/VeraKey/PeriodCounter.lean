/-
A counter that starts again in every period: what it shows is what went out in
the period it names, and a cap checked at each movement bounds every period.
-/
import Mathlib

namespace PeriodCounter

universe u

/-- The total counted in one period. -/
structure Counter (D : Type u) where
  period : D
  total : ℕ

variable {D : Type u} [LinearOrder D]

/-- What the counter already holds for the period `now`. -/
def Counter.carried (c : Counter D) (now : D) : ℕ :=
  if c.period = now then c.total else 0

/-- Count `amount` in the period `now`; an older period is forgotten. -/
def Counter.add (c : Counter D) (now : D) (amount : ℕ) : Counter D :=
  ⟨now, c.carried now + amount⟩

/-- Counting in a period takes nothing away from what later periods see. -/
theorem Counter.carried_le_add {c : Counter D} {now later : D} (hperiod : c.period ≤ now)
    (hlater : now ≤ later) (amount : ℕ) :
    c.carried later ≤ (c.add now amount).carried later := by
  unfold Counter.carried
  split
  · rename_i heq
    have hnow : now = later := le_antisymm hlater (heq ▸ hperiod)
    have hsame : c.period = now := heq.trans hnow.symm
    simp [Counter.add, Counter.carried, hsame, hnow]
  · exact Nat.zero_le _

/-- A history of one counter.  At each step, in a period that never goes back,
it is left alone and nothing goes out, or it counts exactly what goes out. -/
structure Ledger (D : Type u) [LinearOrder D] where
  counter : ℕ → Counter D
  period : ℕ → D
  out : ℕ → ℕ
  period_mono : Monotone period
  start_period : (counter 0).period ≤ period 0
  start_total : (counter 0).total = 0
  moves : ∀ n, (counter (n + 1) = counter n ∧ out n = 0) ∨
    counter (n + 1) = (counter n).add (period n) (out n)

namespace Ledger

variable (L : Ledger D)

/-- What went out in the period `d` during the first `n` steps. -/
def outIn (d : D) (n : ℕ) : ℕ :=
  ∑ i ∈ Finset.range n, if L.period i = d then L.out i else 0

theorem outIn_succ (d : D) (n : ℕ) :
    L.outIn d (n + 1) = L.outIn d n + if L.period n = d then L.out n else 0 :=
  Finset.sum_range_succ _ n

/-- The counter never runs ahead of the clock. -/
theorem counter_period_le (n : ℕ) : (L.counter n).period ≤ L.period n := by
  induction n with
  | zero => exact L.start_period
  | succ n ih =>
      have hclock := L.period_mono n.le_succ
      rcases L.moves n with ⟨hsame, -⟩ | hadd
      · rw [hsame]
        exact ih.trans hclock
      · rw [hadd]
        exact hclock

/-- Nothing has gone out in a period the counter has not reached. -/
theorem outIn_eq_zero_of_lt (d : D) (n : ℕ) (hd : (L.counter n).period < d) :
    L.outIn d n = 0 := by
  induction n with
  | zero => rfl
  | succ n ih =>
      rw [outIn_succ]
      rcases L.moves n with ⟨hsame, hout⟩ | hadd
      · rw [ih (hsame ▸ hd), hout, ite_self]
      · rw [hadd] at hd
        have hlt : (L.counter n).period < d := (L.counter_period_le n).trans_lt hd
        have hne : L.period n ≠ d := ne_of_lt hd
        rw [ih hlt, if_neg hne]

/-- The counter shows exactly what went out in the period it names. -/
theorem total_eq_outIn (n : ℕ) :
    (L.counter n).total = L.outIn (L.counter n).period n := by
  induction n with
  | zero => exact L.start_total
  | succ n ih =>
      rw [outIn_succ]
      rcases L.moves n with ⟨hsame, hout⟩ | hadd
      · rw [hsame, ih, hout, ite_self, Nat.add_zero]
      · rw [hadd]
        simp only [Counter.add, ↓reduceIte, Nat.add_right_cancel_iff]
        unfold Counter.carried
        split
        · rename_i hperiod
          rw [← hperiod, ih]
        · rename_i hperiod
          exact (L.outIn_eq_zero_of_lt _ n
            (lt_of_le_of_ne (L.counter_period_le n) hperiod)).symm

/-- If every movement leaves the counter within the cap of that moment, a
period's outflow is within the largest cap of the period's movements. -/
theorem outIn_le_sup (cap : ℕ → ℕ)
    (hcap : ∀ n, L.out n ≠ 0 → (L.counter (n + 1)).total ≤ cap n)
    (d : D) (n : ℕ) :
    L.outIn d n ≤ ((Finset.range n).filter fun i =>
      L.period i = d ∧ L.out i ≠ 0).sup cap := by
  induction n with
  | zero => exact Nat.zero_le _
  | succ n ih =>
      have hmono : ((Finset.range n).filter fun i =>
          L.period i = d ∧ L.out i ≠ 0).sup cap ≤
          ((Finset.range (n + 1)).filter fun i =>
            L.period i = d ∧ L.out i ≠ 0).sup cap :=
        Finset.sup_mono (Finset.filter_subset_filter _
          (Finset.range_subset_range.mpr n.le_succ))
      rw [outIn_succ]
      by_cases hmoves : L.period n = d ∧ L.out n ≠ 0
      · obtain ⟨hd, hout⟩ := hmoves
        rcases L.moves n with ⟨-, hzero⟩ | hadd
        · exact absurd hzero hout
        · have htotal := L.total_eq_outIn (n + 1)
          have hperiod : (L.counter (n + 1)).period = d := by rw [hadd, ← hd]; rfl
          rw [hperiod, outIn_succ] at htotal
          rw [← htotal]
          exact (hcap n hout).trans (Finset.le_sup (f := cap)
            (Finset.mem_filter.mpr ⟨Finset.self_mem_range_succ n, hd, hout⟩))
      · have hzero : (if L.period n = d then L.out n else 0) = 0 := by
          by_cases hd : L.period n = d
          · have hout : L.out n = 0 := by
              by_contra hne
              exact hmoves ⟨hd, hne⟩
            rw [if_pos hd, hout]
          · rw [if_neg hd]
        rw [hzero, Nat.add_zero]
        exact ih.trans hmono

end Ledger

end PeriodCounter
