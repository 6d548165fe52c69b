/-
Runs of one account: it starts as a fresh clone and meets an endless supply of
calls at block times that never go back.  A call that fails changes nothing and
transfers nothing.
-/
import VeraKey.History
import VeraKey.Step

namespace VeraKey

open ByteCodec Guard

/-- One transaction: what it sees, and what it calls. -/
structure Tx where
  vm : Vm
  call : Call

/-- The state after a transaction. -/
def VeraKeyAccount.next (host : Host) (s : VeraKeyAccount) (tx : Tx) : VeraKeyAccount :=
  match s.exec host tx.vm tx.call with
  | .ok out => out.account
  | .error _ => s

structure Run where
  host : Host
  txs : ℕ → Tx
  clock_mono : Monotone fun n => (txs n).vm.blockTimestamp.toNat

namespace Run

variable (r : Run)

def vm (n : ℕ) : Vm := (r.txs n).vm

def call (n : ℕ) : Call := (r.txs n).call

/-- The block time of the `n`th call. -/
def now (n : ℕ) : UInt64 := (r.vm n).blockTimestamp

/-- The state before the `n`th call. -/
def state (n : ℕ) : VeraKeyAccount :=
  History.run (VeraKeyAccount.next r.host) .fresh r.txs n

def outcome (n : ℕ) : Except Failure Outcome :=
  (r.state n).exec r.host (r.vm n) (r.call n)

def Succeeds (n : ℕ) : Prop := ∃ out, r.outcome n = .ok out

/-- The transfers of the `n`th call. -/
def transfers (n : ℕ) : List Transfer :=
  match r.outcome n with
  | .ok out => out.transfers
  | .error _ => []

theorem state_succ (n : ℕ) : r.state (n + 1) = (r.state n).next r.host (r.txs n) := rfl

theorem now_mono {i j : ℕ} (hij : i ≤ j) : (r.now i).toNat ≤ (r.now j).toNat :=
  r.clock_mono hij

variable {r}

/-- A call that fails is undone. -/
theorem state_succ_of_not_succeeds {n : ℕ} (h : ¬ r.Succeeds n) :
    r.state (n + 1) = r.state n ∧ r.transfers n = [] := by
  rw [state_succ, VeraKeyAccount.next, transfers]
  cases hout : r.outcome n with
  | ok out => exact absurd ⟨out, hout⟩ h
  | error failure =>
      rw [outcome, vm, call] at hout
      rw [hout]
      exact ⟨rfl, rfl⟩

theorem Succeeds.step {n : ℕ} (h : r.Succeeds n) :
    Step r.host (r.vm n) (r.state n) (r.call n) (r.state (n + 1)) (r.transfers n) := by
  obtain ⟨out, hout⟩ := h
  have hstate : r.state (n + 1) = out.account := by
    rw [outcome, vm, call] at hout
    rw [state_succ, VeraKeyAccount.next, hout]
  have htransfers : r.transfers n = out.transfers := by rw [transfers, hout]
  rw [hstate, htransfers]
  exact step_of_exec hout

/-- A call that changes the state succeeded. -/
theorem succeeds_of_ne {n : ℕ} (hne : r.state (n + 1) ≠ r.state n) : r.Succeeds n := by
  by_contra h
  exact hne (state_succ_of_not_succeeds h).1

/-- What a fresh clone satisfies and every successful call preserves holds in
every state of a run. -/
theorem invariant {inv : VeraKeyAccount → Prop} (hfresh : inv .fresh)
    (hstep : ∀ n, r.Succeeds n → inv (r.state n) → inv (r.state (n + 1))) (n : ℕ) :
    inv (r.state n) := by
  refine History.run_invariant hfresh (fun n hn => ?_) n
  by_cases h : r.Succeeds n
  · exact hstep n h hn
  · change inv (r.state (n + 1))
    rw [(state_succ_of_not_succeeds h).1]
    exact hn

/-- A relation between consecutive states composes along a run. -/
theorem relates (rel : VeraKeyAccount → VeraKeyAccount → Prop) (hrefl : ∀ s, rel s s)
    (htrans : ∀ a b c, rel a b → rel b c → rel a c) {i j : ℕ} (hij : i ≤ j)
    (hstep : ∀ n, i ≤ n → n < j → r.Succeeds n → rel (r.state n) (r.state (n + 1))) :
    rel (r.state i) (r.state j) := by
  induction j, hij using Nat.le_induction with
  | base => exact hrefl _
  | succ j hij ih =>
      have hprefix := ih fun n hin hnj => hstep n hin (Nat.lt_succ_of_lt hnj)
      by_cases h : r.Succeeds j
      · exact htrans _ _ _ hprefix (hstep j hij j.lt_succ_self h)
      · rwa [(state_succ_of_not_succeeds h).1]

end Run

/-! ## Initialization -/

open VeraKeyAccount

variable {host : Host} {vm : Vm} {s s' : VeraKeyAccount} {call : Call}
  {transfers : List Transfer}

/-- A fresh clone can only be initialized. -/
theorem Step.of_fresh (h : Step host vm .fresh call s' transfers) :
    ∃ c, call = .initializeAccount c := by
  cases h with
  | initializeAccount => exact ⟨_, rfl⟩
  | pay _ _ _ hauth => exact absurd hauth.initialized Bool.false_ne_true
  | scheduleChange _ _ hauth => exact absurd hauth.initialized Bool.false_ne_true
  | restrict _ _ _ hauth => exact absurd hauth.initialized Bool.false_ne_true
  | restrictFreeze hauth => exact absurd hauth.initialized Bool.false_ne_true
  | applyChange hinit => exact absurd hinit Bool.false_ne_true
  | cancelChange heta => exact absurd rfl heta
  | guardianCancelChange hopens => exact absurd rfl hopens.1
  | guardianFreeze hinit => exact absurd hinit Bool.false_ne_true
  | initiateRecovery _ hinit => exact absurd hinit Bool.false_ne_true
  | executeRecovery heta => exact absurd rfl heta
  | cancelRecovery heta => exact absurd rfl heta
  | guardianCancelRecovery hopens => exact absurd rfl hopens.1

@[simp]
theorem VeraKeyAccount.applied_initialized (c : Change) :
    (s.applied host c).initialized = s.initialized := by
  cases c <;> rfl

theorem Step.initialized (h : Step host vm s call s' transfers)
    (hinit : s.initialized = true) : s'.initialized = true := by
  cases h <;> simp [hinit]

namespace Run

variable {r : Run}

/-- Before it is initialized, a clone is as it was deployed. -/
theorem fresh_or_initialized (r : Run) (n : ℕ) :
    r.state n = .fresh ∨ (r.state n).initialized = true := by
  induction n with
  | zero => exact Or.inl rfl
  | succ n ih =>
      by_cases h : r.Succeeds n
      · have hstep := h.step
        rcases ih with hfresh | hinit
        · rw [hfresh] at hstep
          obtain ⟨c, hcall⟩ := hstep.of_fresh
          rw [hcall] at hstep
          right
          generalize r.state (n + 1) = s', r.transfers n = made at hstep ⊢
          cases hstep
          rfl
        · exact Or.inr (hstep.initialized hinit)
      · rwa [(state_succ_of_not_succeeds h).1]

theorem initialized_of_le {i j : ℕ} (hij : i ≤ j)
    (hinit : (r.state i).initialized = true) : (r.state j).initialized = true :=
  relates (fun s s' => s.initialized = true → s'.initialized = true)
    (fun _ => id) (fun _ _ _ hab hbc => hbc ∘ hab) hij
    (fun _ _ _ h => h.step.initialized) hinit

end Run

end VeraKey
