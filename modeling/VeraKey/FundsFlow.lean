/-
Where money may go, and what never changes: every transfer is a payment the
owner signed or a fee to the fee recipient, and the settings an account was
initialized with stay.
-/
import VeraKey.Run

namespace VeraKey

open VeraKeyAccount

/-- What `initialize` fixes for good. -/
@[ext]
structure Settings where
  usdg : Address
  verifier : Address
  feeRecipient : Address
  maxFee : U256
  appId : B256
  rpIdHash : B256
  origin : ByteCodec.Bytes
  changeDelay : UInt64
  recoveryDelay : UInt64

def VeraKeyAccount.settings (s : VeraKeyAccount) : Settings where
  usdg := s.usdg
  verifier := s.verifier
  feeRecipient := s.feeRecipient
  maxFee := s.feeCeiling
  appId := s.appId
  rpIdHash := s.rpIdHash
  origin := s.origin
  changeDelay := s.changeDelay
  recoveryDelay := s.recoveryDelay

def Configuration.settings (c : Configuration) : Settings where
  usdg := c.usdg
  verifier := c.verifier
  feeRecipient := c.feeRecipient
  maxFee := c.maxFee
  appId := c.appId
  rpIdHash := c.rpIdHash
  origin := c.origin
  changeDelay := c.changeDelay
  recoveryDelay := c.recoveryDelay

variable {host : Host} {vm : Vm} {s s' : VeraKeyAccount} {call : Call}
  {transfers : List Transfer}

@[simp]
theorem VeraKeyAccount.applied_settings (c : Change) :
    (s.applied host c).settings = s.settings := by
  cases c <;> rfl

/-- Only `initialize` writes the settings. -/
theorem Step.settings (h : Step host vm s call s' transfers)
    (hinit : s.initialized = true) : s'.settings = s.settings := by
  cases h with
  | initializeAccount hfresh => exact absurd (hinit.symm.trans hfresh) (by decide)
  | restrict => rw [applied_settings]; rfl
  | applyChange => exact applied_settings (s := s) _
  | _ => rfl

/-- A fresh clone is initialized with exactly the settings it is given. -/
theorem Step.settings_of_fresh {c : Configuration}
    (h : Step host vm s (.initializeAccount c) s' transfers) :
    s'.settings = c.settings := by
  cases h with
  | initializeAccount _ _ _ _ _ hmaxFee =>
      have hfee : U256.ofU64 _ = c.maxFee :=
        BitVec.toNat_inj.mp ((U256.toNat_ofU64 _).trans hmaxFee)
      exact Settings.ext rfl rfl rfl hfee rfl rfl rfl rfl rfl

/-- The transfers a signed fee may cause: none, or one to the fee recipient of at
most that fee, which is itself at most the largest fee. -/
def IsFee (s : VeraKeyAccount) (approval : Approval) (transfers : List Transfer) : Prop :=
  approval.fee.toNat ≤ s.maxFee.toNat ∧
    (transfers = [] ∨ ∃ fee : U256, fee.toNat ≤ approval.fee.toNat ∧
      transfers = [⟨s.usdg, s.feeRecipient, fee⟩])

/-- The transfers a successful call may make. -/
def Call.MayTransfer (s : VeraKeyAccount) (transfers : List Transfer) : Call → Prop
  | .pay recipient amount approval =>
      s.frozen = false ∧ ∃ fees, transfers = ⟨s.usdg, recipient, amount⟩ :: fees ∧
        IsFee s approval fees
  | .scheduleChange _ _ approval | .restrict _ _ approval | .cancelChange _ approval
  | .cancelRecovery approval => IsFee s approval transfers
  | .initializeAccount _ | .applyChange .. | .guardianCancelChange .. | .guardianFreeze _
  | .initiateRecovery .. | .executeRecovery | .guardianCancelRecovery _ => transfers = []

theorem isFee_outgoing {action : Action} {approval : Approval}
    {payment : Option ClientData.Payment}
    (hauth : Authorized host vm s action approval payment) {fee : U256}
    (hfee : fee.toNat ≤ approval.fee.toNat) :
    IsFee s approval (s.outgoing s.feeRecipient fee) := by
  refine ⟨hauth.fee_le_maxFee, ?_⟩
  unfold outgoing
  split
  · exact Or.inl rfl
  · exact Or.inr ⟨fee, hfee, rfl⟩

theorem Step.mayTransfer (h : Step host vm s call s' transfers) :
    call.MayTransfer s transfers := by
  cases h with
  | pay hallowed _ _ hauth =>
      refine ⟨hallowed.unfrozen, _, ?_, isFee_outgoing hauth le_rfl⟩
      rw [outgoing, if_neg hallowed.amount_ne_zero]
      rfl
  | scheduleChange _ _ hauth => exact isFee_outgoing hauth le_rfl
  | restrict _ _ _ hauth => exact isFee_outgoing hauth (chargedFee_le _)
  | restrictFreeze hauth => exact isFee_outgoing hauth (chargedFee_le _)
  | cancelChange _ hauth => exact isFee_outgoing hauth (chargedFee_le _)
  | cancelRecovery _ hauth => exact isFee_outgoing hauth (chargedFee_le _)
  | _ => rfl

namespace Run

variable (r : Run)

theorem settings_eq_of_le {i j : ℕ} (hij : i ≤ j)
    (hinit : (r.state i).initialized = true) :
    (r.state j).settings = (r.state i).settings :=
  History.eq_of_unchanged (f := fun n => (r.state n).settings) hij fun n hin _ => by
    by_cases h : r.Succeeds n
    · exact h.step.settings (initialized_of_le hin hinit)
    · rw [(state_succ_of_not_succeeds h).1]

/-- An initialized account was initialized by a call of the run. -/
theorem exists_initialize {n : ℕ} (hinit : (r.state n).initialized = true) :
    ∃ k c, k < n ∧ r.Succeeds k ∧ r.call k = .initializeAccount c ∧
      (r.state (k + 1)).initialized = true := by
  obtain ⟨k, -, hkn, hbefore, hafter⟩ := History.exists_last_rise
    (p := fun n => (r.state n).initialized = true) (Nat.zero_le n) Bool.false_ne_true hinit
  have hnext := hafter (k + 1) k.lt_succ_self hkn
  have hsucceeds : r.Succeeds k := by
    by_contra hfails
    rw [(state_succ_of_not_succeeds hfails).1] at hnext
    exact hbefore hnext
  have hstep := hsucceeds.step
  rw [(r.fresh_or_initialized k).resolve_right hbefore] at hstep
  obtain ⟨c, hcall⟩ := hstep.of_fresh
  exact ⟨k, c, hkn, hsucceeds, hcall, hnext⟩

/-- Every transfer of a run is the payment of one successful `pay` on an
unfrozen account, made once, or at most one fee per proof-authorized call, to the
fee recipient fixed at initialization; the other calls transfer nothing, and the
settings of an initialized account are those it was initialized with. -/
theorem funds_flow :
    (∀ n, r.Succeeds n → (r.call n).MayTransfer (r.state n) (r.transfers n)) ∧
      (∀ n, ¬ r.Succeeds n → r.transfers n = []) ∧
      ∀ n, (r.state n).initialized = true → ∃ k c, k < n ∧ r.Succeeds k ∧
        r.call k = .initializeAccount c ∧
        ∀ m, k < m → (r.state m).settings = c.settings := by
  refine ⟨fun n h => h.step.mayTransfer, fun n h => (state_succ_of_not_succeeds h).2,
    fun n hinit => ?_⟩
  obtain ⟨k, c, hkn, hsucceeds, hcall, hnext⟩ := r.exists_initialize hinit
  refine ⟨k, c, hkn, hsucceeds, hcall, fun m hkm => ?_⟩
  have hstep := hsucceeds.step
  rw [hcall] at hstep
  rw [r.settings_eq_of_le hkm hnext]
  exact hstep.settings_of_fresh

end Run

end VeraKey
