/-
What must happen along a run: one property of its moments leads to another, where the event
that brings it about comes again and again.
-/
import Mathlib

/-- Whenever `p` holds, `q` holds then or later. -/
def LeadsTo (p q : ℕ → Prop) : Prop := ∀ n, p n → ∃ m, n ≤ m ∧ q m

/-- The event comes again and again. -/
def Recurs (event : ℕ → Prop) : Prop := ∀ n, ∃ m, n ≤ m ∧ event m

namespace LeadsTo

variable {p q r event : ℕ → Prop}

theorem chain (hpq : LeadsTo p q) (hqr : LeadsTo q r) : LeadsTo p r := by
  intro start hp
  rcases hpq start hp with ⟨middle, hmiddle, hq⟩
  rcases hqr middle hq with ⟨last, hlast, hr⟩
  exact ⟨last, hmiddle.trans hlast, hr⟩

/-- A property that only the event can end, and that it turns into another one. -/
theorem of_recurs (hevent : Recurs event) (hstays : ∀ n, p n → ¬ event n → p (n + 1))
    (hturns : ∀ n, p n → event n → q (n + 1)) : LeadsTo p q := by
  have hwithin : ∀ wait n, p n → event (n + wait) → ∃ m, n ≤ m ∧ q m := by
    intro wait
    induction wait with
    | zero =>
        intro n hp hnow
        exact ⟨n + 1, Nat.le_succ n, hturns n hp hnow⟩
    | succ wait ih =>
        intro n hp hlater
        by_cases hnow : event n
        · exact ⟨n + 1, Nat.le_succ n, hturns n hp hnow⟩
        · rw [← Nat.succ_add_eq_add_succ] at hlater
          obtain ⟨m, hm, hq⟩ := ih (n + 1) (hstays n hp hnow) hlater
          exact ⟨m, Nat.le_of_succ_le hm, hq⟩
  intro n hp
  obtain ⟨m, hnm, hm⟩ := hevent n
  exact hwithin (m - n) n hp ((Nat.add_sub_of_le hnm).symm ▸ hm)

end LeadsTo
