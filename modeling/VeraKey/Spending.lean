/-
USDG spending limits: a per-transaction cap and a daily cap over UTC-day
windows.  A window is a counter that starts again every day.
-/
import VeraKey.PeriodCounter
import VeraKey.Word

namespace VeraKey

namespace Spending

open PeriodCounter

def secondsPerDay : UInt64 := 86400

inductive SpendError
  | perTxCapExceeded
  | dailyCapExceeded
deriving DecidableEq, Repr

/-- Amount spent inside one UTC day. -/
@[ext]
structure Window where
  day : UInt64
  spent : U256
deriving DecidableEq

/-- What a window already holds for the day of `now`. -/
def Window.already (window : Window) (now : UInt64) : U256 :=
  if window.day = now / secondsPerDay then window.spent else 0

/-- The window after spending `amount` at `now`, or the cap it would break. -/
def spend (perTxCap dailyCap : U256) (window : Window) (now : UInt64)
    (amount : U256) : Except SpendError Window :=
  if amount > perTxCap then .error .perTxCapExceeded
  else
    match U256.checkedAdd (window.already now) amount with
    | some total =>
        if total ≤ dailyCap then .ok ⟨now / secondsPerDay, total⟩
        else .error .dailyCapExceeded
    | none => .error .dailyCapExceeded

/-- Charges a safety action's fee at `now`: the part past `dailyCap` is waived.
Returns the new window and the part of `fee` to pay. -/
def chargeFee (dailyCap : U256) (window : Window) (now : UInt64) (fee : U256) :
    Window × U256 :=
  let charged := U256.min fee (U256.saturatingSub dailyCap (window.already now))
  (⟨now / secondsPerDay, window.already now + charged⟩, charged)

/-! ## Windows as counters -/

/-- The UTC day of a block time. -/
def dayOf (now : UInt64) : ℕ := (now / secondsPerDay).toNat

def Window.counter (window : Window) : Counter ℕ :=
  ⟨window.day.toNat, window.spent.toNat⟩

theorem dayOf_eq (now : UInt64) : dayOf now = now.toNat / 86400 := by
  simp [dayOf, secondsPerDay]

theorem toNat_already (window : Window) (now : UInt64) :
    (window.already now).toNat = window.counter.carried (dayOf now) := by
  unfold Window.already Counter.carried
  by_cases hday : window.day = now / secondsPerDay
  · simp [hday, Window.counter, dayOf]
  · have hne : window.day.toNat ≠ dayOf now := fun heq =>
      hday (UInt64.toNat_inj.mp heq)
    simp [hday, Window.counter, hne]

/-- What a successful `spend` checked, and the window it leaves. -/
theorem spend_eq_ok {perTxCap dailyCap : U256} {window window' : Window}
    {now : UInt64} {amount : U256} :
    spend perTxCap dailyCap window now amount = .ok window' ↔
      amount.toNat ≤ perTxCap.toNat ∧
        window'.counter = window.counter.add (dayOf now) amount.toNat ∧
        window'.spent.toNat ≤ dailyCap.toNat := by
  have hwindow : window'.counter = window.counter.add (dayOf now) amount.toNat ↔
      window'.day = now / secondsPerDay ∧
        U256.checkedAdd (window.already now) amount = some window'.spent := by
    rw [U256.checkedAdd_eq_some, toNat_already]
    simp only [Window.counter, Counter.add, Counter.mk.injEq, dayOf, UInt64.toNat_inj]
  rw [hwindow]
  unfold spend
  by_cases htx : amount > perTxCap
  · rw [if_pos htx]
    rw [gt_iff_lt, BitVec.lt_def] at htx
    simp only [reduceCtorEq, false_iff, not_and]
    omega
  · rw [if_neg htx]
    rw [gt_iff_lt, BitVec.not_lt, BitVec.le_def] at htx
    cases hadd : U256.checkedAdd (window.already now) amount with
    | none => simp
    | some total =>
        simp only [Option.some.injEq]
        by_cases hcap : total ≤ dailyCap
        · rw [if_pos hcap]
          rw [BitVec.le_def] at hcap
          simp only [Except.ok.injEq, Window.ext_iff]
          constructor
          · rintro ⟨hday, rfl⟩
            exact ⟨htx, ⟨hday.symm, rfl⟩, hcap⟩
          · rintro ⟨-, ⟨hday, rfl⟩, -⟩
            exact ⟨hday.symm, rfl⟩
        · rw [if_neg hcap]
          rw [BitVec.le_def] at hcap
          simp only [reduceCtorEq, false_iff, not_and]
          rintro - ⟨-, rfl⟩
          exact hcap

/-- A safety fee is charged up to what the day's cap leaves. -/
theorem toNat_chargeFee (dailyCap : U256) (window : Window) (now : UInt64)
    (fee : U256) :
    (chargeFee dailyCap window now fee).2.toNat =
      min fee.toNat (dailyCap.toNat - window.counter.carried (dayOf now)) := by
  rw [← toNat_already, ← U256.toNat_saturatingSub, ← U256.toNat_min]
  rfl

/-- The new window counts exactly the charged part. -/
theorem chargeFee_counter (dailyCap : U256) (window : Window) (now : UInt64)
    (fee : U256) :
    (chargeFee dailyCap window now fee).1.counter =
      window.counter.add (dayOf now) (chargeFee dailyCap window now fee).2.toNat := by
  have hcharged := toNat_chargeFee dailyCap window now fee
  have halready := toNat_already window now
  have hbound := (window.already now).isLt
  have hcap := dailyCap.isLt
  have hfit : (window.already now).toNat +
      (chargeFee dailyCap window now fee).2.toNat < 2 ^ 256 := by
    omega
  have hspent : (chargeFee dailyCap window now fee).1.spent =
      window.already now + (chargeFee dailyCap window now fee).2 := rfl
  simp only [Window.counter, Counter.add, Counter.mk.injEq]
  refine ⟨rfl, ?_⟩
  rw [hspent, BitVec.toNat_add, Nat.mod_eq_of_lt hfit, halready]
  rfl

/-- A nonzero charge leaves the day within its cap. -/
theorem chargeFee_within_cap {dailyCap : U256} {window : Window} {now : UInt64}
    {fee : U256} (hcharged : (chargeFee dailyCap window now fee).2.toNat ≠ 0) :
    (chargeFee dailyCap window now fee).1.spent.toNat ≤ dailyCap.toNat := by
  have hcount := congrArg Counter.total (chargeFee_counter dailyCap window now fee)
  have hvalue := toNat_chargeFee dailyCap window now fee
  simp only [Window.counter, Counter.add] at hcount hvalue hcharged
  omega

end Spending

end VeraKey
