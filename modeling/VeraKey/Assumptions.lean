/-
What the results assume of the chain around an account: a hash function without
collisions on what is hashed, a clock that fits, and a nonce that is never used
up.
-/
import VeraKey.Approval
import VeraKey.FundsFlow

namespace VeraKey

open ByteCodec VeraKeyAccount

/-- The action encodings and change encodings a successful call hashes. -/
def Call.hashed (host : Host) (s : VeraKeyAccount) : Call → List Bytes
  | .pay recipient amount approval =>
      [(s.approvedAction host Kind.pay recipient amount 0 approval).encode]
  | .scheduleChange changeKind payload approval =>
      [changeKind :: payload, (s.approvedAction host Kind.scheduleChange 0 0
        (changeDataHash host changeKind payload) approval).encode]
  | .restrict changeKind payload approval =>
      [changeKind :: payload, (s.approvedAction host Kind.restrict 0 0
        (changeDataHash host changeKind payload) approval).encode]
  | .applyChange _ changeKind payload => [changeKind :: payload]
  | .cancelChange changeId approval =>
      [(s.approvedAction host Kind.cancelChange 0 0 changeId approval).encode]
  | .cancelRecovery approval =>
      [(s.approvedAction host Kind.cancelRecovery 0 0 s.recoveryNullifier
        approval).encode]
  | _ => []

namespace Run

variable (r : Run)

/-- Everything the successful calls of a run hash. -/
def hashed : Set Bytes :=
  {preimage | ∃ n, r.Succeeds n ∧ preimage ∈ (r.call n).hashed r.host (r.state n)}

/-- The hash function has no collision among what is hashed. -/
def CollisionFree : Prop := Set.InjOn r.host.keccak r.hashed

/-- Nothing that is hashed has the hash zero. -/
def NeverZero : Prop := ∀ preimage ∈ r.hashed, r.host.keccak preimage ≠ 0

/-- Adding a delay to a block time does not overflow. -/
def ClockFits : Prop := ∀ n, (r.now n).toNat < 2 ^ 63

def ClockPositive : Prop := ∀ n, 0 < (r.now n).toNat

/-- The nonce never reaches its largest value, which would take as many calls. -/
def NonceFits : Prop := ∀ n, (r.state n).nonce.toNat < 2 ^ 64 - 1

/-- The epoch never reaches its largest value, which would take as many recoveries. -/
def EpochFits : Prop := ∀ n, (r.state n).ownerEpoch.toNat < 2 ^ 256 - 1

/-- The assumptions under which the pending table is sound. -/
structure Regular : Prop where
  clockFits : r.ClockFits
  clockPositive : r.ClockPositive
  collisionFree : r.CollisionFree
  neverZero : r.NeverZero

variable {r}

/-! ## Delays -/

/-- The configuration an initialized account runs with. -/
theorem exists_configuration {n : ℕ} (hinit : (r.state n).initialized = true) :
    ∃ c : Configuration, c.valid = true ∧ (r.state n).settings = c.settings := by
  obtain ⟨k, c, hkn, hsucceeds, hcall, hnext⟩ := r.exists_initialize hinit
  have hstep := hsucceeds.step
  rw [hcall] at hstep
  refine ⟨c, ?_, ?_⟩
  · generalize r.state (k + 1) = s', r.transfers k = made at hstep
    cases hstep with
    | initializeAccount _ hvalid => exact hvalid
  · rw [r.settings_eq_of_le hkn hnext]
    exact hstep.settings_of_fresh

theorem delays_le {n : ℕ} (hinit : (r.state n).initialized = true) :
    (r.state n).changeDelay.toNat ≤ 2592000 ∧
      (r.state n).recoveryDelay.toNat ≤ 2592000 := by
  obtain ⟨c, hvalid, hsettings⟩ := exists_configuration hinit
  have hchange : (r.state n).changeDelay = c.changeDelay :=
    congrArg Settings.changeDelay hsettings
  have hrecovery : (r.state n).recoveryDelay = c.recoveryDelay :=
    congrArg Settings.recoveryDelay hsettings
  have hpolicy : Config.isValidPolicy c.policy = true := by
    simp only [Configuration.valid, Bool.and_eq_true] at hvalid
    exact hvalid.2
  obtain ⟨-, -, -, ⟨hc, hr⟩, -⟩ := Config.isValidPolicy_eq_true.mp hpolicy
  rw [hchange, hrecovery]
  exact ⟨UInt64.le_iff_toNat_le.mp hc, UInt64.le_iff_toNat_le.mp hr⟩

/-- How long a change of this kind waits. -/
def waitingTime (s : VeraKeyAccount) (changeKind : UInt8) : ℕ :=
  s.changeDelay.toNat +
    if changeKind = Changes.setGuardian then s.recoveryDelay.toNat else 0

theorem toNat_scheduleDelay {n : ℕ} (hinit : (r.state n).initialized = true)
    (changeKind : UInt8) :
    ((r.state n).scheduleDelay changeKind).toNat = waitingTime (r.state n) changeKind := by
  have hdelays := delays_le hinit
  unfold scheduleDelay waitingTime
  split
  · rw [UInt64.toNat_add]
    omega
  · rfl

/-- The time a change scheduled now can be applied. -/
theorem toNat_eta (hclock : r.ClockFits) {n : ℕ}
    (hinit : (r.state n).initialized = true) (changeKind : UInt8) :
    (r.now n + (r.state n).scheduleDelay changeKind).toNat =
      (r.now n).toNat + waitingTime (r.state n) changeKind := by
  have hdelays := delays_le hinit
  have hnow := hclock n
  have hwait : waitingTime (r.state n) changeKind ≤ 2 * 2592000 := by
    unfold waitingTime
    split <;> omega
  rw [UInt64.toNat_add, toNat_scheduleDelay hinit]
  omega

theorem toNat_recoveryEta (hclock : r.ClockFits) {n : ℕ}
    (hinit : (r.state n).initialized = true) :
    (r.now n + (r.state n).recoveryDelay).toNat =
      (r.now n).toNat + (r.state n).recoveryDelay.toNat := by
  have hdelays := delays_le hinit
  have hnow := hclock n
  rw [UInt64.toNat_add]
  omega

end Run

/-! ## Counters -/

variable {host : Host} {vm : Vm} {s s' : VeraKeyAccount} {call : Call}
  {transfers : List Transfer}

/-- A call uses at most one nonce. -/
theorem Step.nonce_cases (h : Step host vm s call s' transfers) :
    s'.nonce = s.nonce ∨ s'.nonce = s.nonce + 1 := by
  cases h <;> simp

@[simp]
theorem VeraKeyAccount.applied_ownerEpoch (c : Change) :
    (s.applied host c).ownerEpoch = s.ownerEpoch := by
  cases c <;> rfl

/-- The owner epoch moves only when a recovery is executed. -/
theorem Step.ownerEpoch_cases (h : Step host vm s call s' transfers) :
    s'.ownerEpoch = s.ownerEpoch ∨
      call = .executeRecovery ∧ s'.ownerEpoch = s.ownerEpoch + 1 := by
  cases h with
  | restrict => exact Or.inl (applied_ownerEpoch _)
  | applyChange => exact Or.inl (applied_ownerEpoch (s := s) _)
  | executeRecovery => exact Or.inr ⟨rfl, rfl⟩
  | _ => exact Or.inl rfl

namespace Run

variable {r : Run}

theorem nonce_le_of_le (hnonce : r.NonceFits) {i j : ℕ} (hij : i ≤ j) :
    (r.state i).nonce.toNat ≤ (r.state j).nonce.toNat := by
  induction j, hij using Nat.le_induction with
  | base => exact le_rfl
  | succ j hij ih =>
      refine ih.trans ?_
      by_cases h : r.Succeeds j
      · rcases h.step.nonce_cases with hsame | hnext
        · rw [hsame]
        · have hfits := hnonce j
          rw [hnext, UInt64.toNat_add, UInt64.toNat_one]
          omega
      · rw [(state_succ_of_not_succeeds h).1]

/-- No more nonces are used than calls are made. -/
theorem nonce_le (r : Run) (n : ℕ) : (r.state n).nonce.toNat ≤ n := by
  induction n with
  | zero => exact le_rfl
  | succ n ih =>
      by_cases h : r.Succeeds n
      · rcases h.step.nonce_cases with hsame | hnext
        · rw [hsame]
          omega
        · rw [hnext, UInt64.toNat_add, UInt64.toNat_one]
          omega
      · rw [(state_succ_of_not_succeeds h).1]
        omega

/-- No more recoveries are executed than calls are made. -/
theorem ownerEpoch_le (r : Run) (n : ℕ) : (r.state n).ownerEpoch.toNat ≤ n := by
  induction n with
  | zero => exact le_rfl
  | succ n ih =>
      by_cases h : r.Succeeds n
      · rcases h.step.ownerEpoch_cases with hsame | ⟨-, hnext⟩
        · rw [hsame]
          omega
        · have hle : (r.state (n + 1)).ownerEpoch.toNat ≤
              (r.state n).ownerEpoch.toNat + 1 := by
            rw [hnext, BitVec.toNat_add]
            exact Nat.mod_le _ _
          omega
      · rw [(state_succ_of_not_succeeds h).1]
        omega

end Run

end VeraKey
