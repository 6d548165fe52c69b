/-
The daily cap over whole runs.  The spending window is a counter that starts
again every day and counts exactly what leaves the account.
-/
import VeraKey.Run

namespace VeraKey

open PeriodCounter VeraKeyAccount

variable {host : Host} {vm : Vm} {s s' : VeraKeyAccount} {call : Call}
  {transfers : List Transfer}

@[simp]
theorem VeraKeyAccount.applied_window (c : Change) :
    (s.applied host c).window = s.window := by
  cases c <;> rfl

@[simp]
theorem VeraKeyAccount.window_withTable
    (t : SlotTable.Table maxPending B256 PendingChange) :
    (s.withTable t).window = s.window := rfl

/-- A fee within what the day's cap leaves is counted in full. -/
theorem VeraKeyAccount.counter_charged {fee : U256}
    (hfits : (s.chargedWindow vm fee).spent.toNat < 2 ^ 128) :
    (s.charged vm fee).window.counter = s.window.counter.add
      (Spending.dayOf vm.blockTimestamp) (s.chargedFee vm fee).toNat := by
  rw [charged_eq, counter_withWindow hfits]
  exact Spending.chargeFee_counter _ _ _ _

theorem VeraKeyAccount.charged_within_cap {fee : U256}
    (hfits : (s.chargedWindow vm fee).spent.toNat < 2 ^ 128)
    (hpaid : (s.chargedFee vm fee).toNat ≠ 0) :
    (s.charged vm fee).window.counter.total ≤ s.dailyCap.toNat := by
  have hcap := Spending.chargeFee_within_cap hpaid
  rw [charged_eq, counter_withWindow hfits]
  rwa [U256.toNat_ofU128] at hcap

/-- A successful call leaves the counter alone and transfers nothing, or counts
what it transfers, within the cap in force. -/
theorem Step.ledger (h : Step host vm s call s' transfers) :
    (s'.window.counter = s.window.counter ∧ totalOut transfers = 0) ∨
      (s'.window.counter = s.window.counter.add (Spending.dayOf vm.blockTimestamp)
          (totalOut transfers) ∧
        (totalOut transfers ≠ 0 → s'.window.counter.total ≤ s.dailyCap.toNat)) := by
  have hcharge : ∀ {fee : U256}, (s.chargedWindow vm fee).spent.toNat < 2 ^ 128 →
      (s.charged vm fee).window.counter = s.window.counter.add
          (Spending.dayOf vm.blockTimestamp)
          (totalOut (s.outgoing s.feeRecipient (s.chargedFee vm fee))) ∧
        (totalOut (s.outgoing s.feeRecipient (s.chargedFee vm fee)) ≠ 0 →
          (s.charged vm fee).window.counter.total ≤ s.dailyCap.toNat) := by
    intro fee hfits
    rw [totalOut_outgoing]
    exact ⟨counter_charged hfits, charged_within_cap hfits⟩
  have hspend : ∀ {amount : ℕ} {window : Spending.Window},
      s.WithinCaps vm amount window →
      (s.useNonce.withWindow window).window.counter = s.window.counter.add
          (Spending.dayOf vm.blockTimestamp) amount ∧
        (amount ≠ 0 →
          (s.useNonce.withWindow window).window.counter.total ≤ s.dailyCap.toNat) := by
    intro amount window hcaps
    rw [counter_withWindow hcaps.fits]
    exact ⟨hcaps.counts, fun _ => hcaps.daily⟩
  cases h with
  | initializeAccount => exact Or.inl ⟨rfl, rfl⟩
  | pay _ _ hcaps _ =>
      rw [totalOut_append, totalOut_outgoing, totalOut_outgoing]
      exact Or.inr (hspend hcaps)
  | scheduleChange _ hcaps _ _ =>
      rw [totalOut_outgoing, window_withTable]
      exact Or.inr (hspend hcaps)
  | restrict _ _ _ _ hfits =>
      rw [applied_window]
      exact Or.inr (hcharge hfits)
  | restrictFreeze _ hfits => exact Or.inr (hcharge hfits)
  | applyChange =>
      rw [window_withTable, applied_window]
      exact Or.inl ⟨rfl, rfl⟩
  | cancelChange _ _ hfits => exact Or.inr (hcharge hfits)
  | guardianCancelChange => exact Or.inl ⟨rfl, rfl⟩
  | guardianFreeze => exact Or.inl ⟨rfl, rfl⟩
  | initiateRecovery => exact Or.inl ⟨rfl, rfl⟩
  | executeRecovery => exact Or.inl ⟨rfl, rfl⟩
  | cancelRecovery _ _ hfits => exact Or.inr (hcharge hfits)
  | guardianCancelRecovery => exact Or.inl ⟨rfl, rfl⟩

namespace Run

variable (r : Run)

/-- The UTC day of the `n`th call. -/
def day (n : ℕ) : ℕ := Spending.dayOf (r.now n)

/-- The spending window of a run, with what went out of the account. -/
def ledger : Ledger ℕ where
  counter n := (r.state n).window.counter
  period := r.day
  out n := totalOut (r.transfers n)
  period_mono i j hij := by
    simp only [day, Spending.dayOf_eq]
    exact Nat.div_le_div_right (r.now_mono hij)
  start_period := Nat.zero_le _
  start_total := rfl
  moves n := by
    by_cases h : r.Succeeds n
    · rcases h.step.ledger with hidle | ⟨hcounts, -⟩
      · exact Or.inl hidle
      · exact Or.inr hcounts
    · obtain ⟨hstate, htransfers⟩ := state_succ_of_not_succeeds h
      rw [hstate, htransfers]
      exact Or.inl ⟨rfl, rfl⟩

/-- The USDG transferred out on one UTC day during the first `n` calls. -/
def outOnDay (day n : ℕ) : ℕ :=
  ∑ i ∈ Finset.range n, if r.day i = day then totalOut (r.transfers i) else 0

theorem total_within_cap {n : ℕ} (hout : totalOut (r.transfers n) ≠ 0) :
    (r.state (n + 1)).window.counter.total ≤ (r.state n).dailyCap.toNat := by
  by_cases h : r.Succeeds n
  · rcases h.step.ledger with ⟨-, hzero⟩ | ⟨-, hcap⟩
    · exact absurd hzero hout
    · exact hcap hout
  · rw [(state_succ_of_not_succeeds h).2] at hout
    exact absurd rfl hout

/-- What leaves the account on one UTC day is at most the largest daily cap in
force at one of the day's payments or fee charges, `spentToday` is exactly what
left on `spendDay`, and a failed call changes and transfers nothing. -/
theorem daily_cap (day n : ℕ) :
    r.outOnDay day n ≤ ((Finset.range n).filter fun i =>
        r.day i = day ∧ totalOut (r.transfers i) ≠ 0).sup
          (fun i => (r.state i).dailyCap.toNat) ∧
      (r.state n).spentToday.toNat = r.outOnDay (r.state n).spendDay.toNat n ∧
      ∀ i, ¬ r.Succeeds i → r.state (i + 1) = r.state i ∧ r.transfers i = [] := by
  refine ⟨?_, ?_, fun i hfails => state_succ_of_not_succeeds hfails⟩
  · exact r.ledger.outIn_le_sup (fun i => (r.state i).dailyCap.toNat)
      (fun i hout => r.total_within_cap hout) day n
  · calc (r.state n).spentToday.toNat
        = (r.ledger.counter n).total := (U256.toNat_ofU128 _).symm
      _ = r.outOnDay (r.state n).spendDay.toNat n := r.ledger.total_eq_outIn n

end Run

end VeraKey
