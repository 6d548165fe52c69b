/-
The limits of an account fit together in every state it can reach, so the
arithmetic of its calls neither overflows nor fails to convert.
-/
import VeraKey.PaymentPolicy

namespace VeraKey

open ByteCodec Guard PeriodCounter VeraKeyAccount

variable {host : Host} {vm : Vm} {s s' : VeraKeyAccount} {call : Call}
  {transfers : List Transfer}

/-! ## The limits -/

/-- A nonzero per-payment cap between the largest fee and the daily cap. -/
structure LimitsSound (s : VeraKeyAccount) : Prop where
  perTx_pos : 0 < s.perTxCap.toNat
  perTx_le : s.perTxCap.toNat ≤ s.dailyCap.toNat
  maxFee_le : s.maxFee.toNat ≤ s.perTxCap.toNat

theorem limitsSound_of_valid {c : Configuration} (hvalid : c.valid = true)
    (hperTx : s.perTxCap.toNat = c.perTxCap.toNat)
    (hdaily : s.dailyCap.toNat = c.dailyCap.toNat)
    (hmaxFee : s.maxFee.toNat = c.maxFee.toNat) : LimitsSound s := by
  have hpolicy : Config.isValidPolicy c.policy = true := by
    simp only [Configuration.valid, Bool.and_eq_true] at hvalid
    exact hvalid.2
  obtain ⟨-, ⟨hne, hle⟩, -, -, -, hfee⟩ := Config.isValidPolicy_eq_true.mp hpolicy
  have hpos : c.perTxCap.toNat ≠ 0 := fun hzero => hne (BitVec.eq_of_toNat_eq hzero)
  exact ⟨by omega, by rw [hperTx, hdaily]; exact BitVec.le_def.mp hle,
    by rw [hmaxFee, hperTx]; exact BitVec.le_def.mp hfee⟩

/-- A change that keeps fees payable keeps the limits sound. -/
theorem LimitsSound.applied (h : LimitsSound s) {c : Change}
    (hpayable : c.KeepsFeesPayable s.maxFee.toNat) : LimitsSound (s.applied host c) := by
  cases c with
  | setLimits perTx daily pos le =>
      have hne : perTx.toNat ≠ 0 := fun hzero => pos (BitVec.eq_of_toNat_eq hzero)
      exact ⟨Nat.pos_of_ne_zero hne, BitVec.le_def.mp le, hpayable⟩
  | _ => exact ⟨h.perTx_pos, h.perTx_le, h.maxFee_le⟩

/-- A call keeps the limits sound, if the change it applies keeps fees payable. -/
theorem Step.limitsSound (h : Step host vm s call s' transfers)
    (hsound : s.initialized = true → LimitsSound s) (hinit : s'.initialized = true)
    (hpayable : ∀ changeId (c : Change), call = .applyChange changeId c.kind c.payload →
      c.KeepsFeesPayable s.maxFee.toNat) : LimitsSound s' := by
  cases h with
  | initializeAccount _ hvalid hperTx hdaily _ hmaxFee =>
      exact limitsSound_of_valid hvalid hperTx hdaily hmaxFee
  | @restrict _ approval _ _ hkeeps hauth =>
      have hbefore := hsound hauth.initialized
      have hcharged : LimitsSound (s.charged vm approval.fee) :=
        ⟨hbefore.perTx_pos, hbefore.perTx_le, hbefore.maxFee_le⟩
      exact hcharged.applied hkeeps
  | applyChange hbefore =>
      have happlied : LimitsSound (s.applied host _) :=
        (hsound hbefore).applied (hpayable _ _ rfl)
      exact ⟨happlied.perTx_pos, happlied.perTx_le, happlied.maxFee_le⟩
  | _ =>
      have hbefore := hsound hinit
      exact ⟨hbefore.perTx_pos, hbefore.perTx_le, hbefore.maxFee_le⟩

namespace Run

variable {r : Run}

/-- An applied limits change kept fees payable when it was scheduled, and the largest
fee is still the same. -/
theorem maxFee_le_of_apply (hclock : r.ClockFits) (hinj : r.CollisionFree) {n : ℕ}
    {changeId : B256} (c : Change) (hsucceeds : r.Succeeds n)
    (hcall : r.call n = .applyChange changeId c.kind c.payload) :
    c.KeepsFeesPayable (r.state n).maxFee.toNat := by
  obtain ⟨m, approval, htimelocked⟩ := timelocked_of_apply hclock hinj hsucceeds hcall
  have hstep := htimelocked.succeeds.step
  rw [htimelocked.call_eq] at hstep
  obtain ⟨scheduled, hschedules⟩ := hstep.schedules
  obtain ⟨hkind, hpayload, -⟩ := Call.scheduleChange.inj hschedules.call_eq
  have hsettings := r.settings_eq_of_le htimelocked.earlier.le
    hschedules.authorized.initialized
  have hceiling : (r.state m).feeCeiling = (r.state n).feeCeiling :=
    (congrArg Settings.maxFee hsettings).symm
  have hfee : (r.state n).feeCeiling.toNat = (r.state n).maxFee.toNat :=
    U256.toNat_ofU64 _
  rw [← hfee, ← c.keepsFeesPayable_payload, hkind, hpayload,
    scheduled.keepsFeesPayable_payload, ← hceiling, feeCeiling, U256.toNat_ofU64]
  exact hschedules.schedulable.keepsFeesPayable

theorem limitsSound (hclock : r.ClockFits) (hinj : r.CollisionFree) (n : ℕ)
    (hinit : (r.state n).initialized = true) : LimitsSound (r.state n) := by
  induction n with
  | zero => exact absurd hinit Bool.false_ne_true
  | succ n ih =>
      by_cases hsucceeds : r.Succeeds n
      · exact hsucceeds.step.limitsSound ih hinit fun _ c hcall =>
          maxFee_le_of_apply hclock hinj c hsucceeds hcall
      · rw [(state_succ_of_not_succeeds hsucceeds).1] at hinit ⊢
        exact ih hinit

/-- The owner counter has room for every waiting change. -/
theorem ownerCount_fits (hnonce : r.NonceFits) (n : ℕ) :
    ((r.state n).initialized = true → 0 < (r.state n).ownerCount.toNat) ∧
      OwnersWithinNonce (r.state n) := by
  induction n with
  | zero =>
      have hfresh : OwnersInvariant r.host .fresh := ownersInvariant_fresh
      exact ⟨fun hinit => absurd hinit Bool.false_ne_true, hfresh.withinNonce⟩
  | succ n ih =>
      obtain ⟨hpos, hwithin⟩ := ih
      by_cases hsucceeds : r.Succeeds n
      · have hfresh := (r.fresh_or_initialized n).symm
        refine ⟨fun hinit => ?_,
          hsucceeds.step.ownersWithinNonce hwithin (hnonce n) hpos hfresh⟩
        exact hsucceeds.step.ownerCount_pos hwithin (hnonce n) hpos hinit
      · rw [(state_succ_of_not_succeeds hsucceeds).1]
        exact ⟨hpos, hwithin⟩

end Run

/-! ## Conversions -/

namespace VeraKeyAccount

theorem checkSpend_ne_abort (amount : U256) : s.checkSpend vm amount ≠ .error .abort := by
  intro habort
  obtain ⟨error, -, hfailure⟩ := mapError_eq_error.mp habort
  cases error <;> cases hfailure

/-- The per-payment cap refuses only what exceeds it. -/
theorem checkSpend_ne_perTxCap {amount : U256} (hle : amount.toNat ≤ s.perTxCap.toNat) :
    s.checkSpend vm amount ≠ .error (.revert .perTxCapExceeded) := by
  intro herror
  obtain ⟨error, hspend, hfailure⟩ := mapError_eq_error.mp herror
  cases error with
  | dailyCapExceeded => cases hfailure
  | perTxCapExceeded =>
      unfold Spending.spend at hspend
      rw [if_neg (by rw [gt_iff_lt, BitVec.lt_def, U256.toNat_ofU128]; omega)] at hspend
      split at hspend
      · split at hspend <;> cases hspend
      · cases hspend

/-- What passed the caps is recorded without truncation. -/
theorem recordSpend_of_checkSpend {amount : U256} {window : Spending.Window}
    (hcheck : s.checkSpend vm amount = .ok window) (s' : VeraKeyAccount) :
    s'.recordSpend window = .ok (s'.withWindow window) ∧
      (s'.withWindow window).spentToday.toNat = window.spent.toNat := by
  have hfits := (withinCaps_of_checkSpend hcheck).fits
  exact ⟨recordSpend_eq_ok.mpr ⟨hfits, rfl⟩,
    (BitVec.toNat_setWidth _ _).trans (Nat.mod_eq_of_lt hfits)⟩

theorem fromSlice_ne_abort {slice : Bytes} (hlength : slice.length = 32) :
    fromSlice slice ≠ .error .abort := by
  intro habort
  obtain ⟨hnone, -⟩ := orElse_eq_error.mp habort
  simp [FixedBytes.ofSlice?, hlength] at hnone

/-- A SHA-256 answer is too short only when the precompile breaks its contract. -/
theorem sha256_abort {data : Bytes} (habort : sha256 vm data = .error .abort) :
    ∃ answer, vm.sha256 data = some answer ∧ answer.length < 32 := by
  unfold sha256 at habort
  split at habort
  · cases habort
  · rename_i answer hanswer
    refine ⟨answer, hanswer, ?_⟩
    by_contra hlong
    exact fromSlice_ne_abort (by simp; omega) habort

/-- Only a short SHA-256 answer aborts an authorization. -/
theorem authorize_abort {actionKind : UInt8} {target : Address} {amount : U256}
    {dataHash : B256} {approval : Approval} {payment : Option ClientData.Payment}
    (habort : s.authorize host vm actionKind target amount dataHash approval payment =
      .error .abort) :
    ∃ data answer, vm.sha256 data = some answer ∧ answer.length < 32 := by
  unfold authorize checkClientData at habort
  simp only [bind_eq_error, rejectIf_eq_error, reduceCtorEq, and_false, false_or,
    pure_ne_error, exists_false, or_false] at habort
  obtain ⟨-, -, -, -, -, -, -, -, -, -, hjson | ⟨-, -, hdigest⟩⟩ := habort
  · split at hjson
    · simp only [bind_eq_error, orElse_eq_error, Failure.ofClientDataError, reduceCtorEq,
        and_false, false_or, mapError_eq_error, exists_false, rejectIf_eq_error,
        or_false] at hjson
      obtain ⟨-, -, rpId, -, hdigest⟩ := hjson
      exact ⟨rpId, sha256_abort hdigest⟩
    · obtain ⟨error, -, hfailure⟩ := mapError_eq_error.mp hjson
      cases hfailure
  · exact ⟨_, sha256_abort hdigest⟩

theorem transferUsdg_ne_abort {made : List Transfer} {recipient : Address} {amount : U256} :
    s.transferUsdg vm made recipient amount ≠ .error .abort := by
  unfold transferUsdg
  split
  · exact pure_ne_error
  · simp [map_eq_error, rejectIf_eq_error]

theorem payPolicy_ne_abort {recipient : Address} {amount fee : U256} {json : Bytes} :
    s.payPolicy host vm recipient amount fee json ≠ .error .abort := by
  unfold payPolicy
  simp [bind_eq_error, map_eq_error, rejectIf_eq_error, orElse_eq_error,
    checkSpend_ne_abort]

/-- A payment that passed its policy checks is narrowed without loss. -/
theorem toU128?_of_payPolicy {recipient : Address} {amount fee total : U256} {json : Bytes}
    {window : Spending.Window}
    (hpolicy : s.payPolicy host vm recipient amount fee json = .ok (total, window)) :
    ∃ shown, total.toU128? = some shown ∧ s.checkSpend vm total = .ok window := by
  unfold payPolicy at hpolicy
  simp only [bind_eq_ok, rejectIf_eq_ok, orElse_eq_ok, pure_eq_ok, Prod.mk.injEq] at hpolicy
  obtain ⟨-, -, -, -, -, -, -, -, -, -, sum, -, spent, hspend, -, -, rfl, rfl⟩ := hpolicy
  have hfits := (checkSpend_eq_ok.mp hspend).1.trans_lt s.perTxCap.isLt
  exact ⟨_, if_pos hfits, hspend⟩

/-- Only a short SHA-256 answer aborts a payment. -/
theorem pay_abort {recipient : Address} {amount : U256} {approval : Approval}
    (habort : s.pay host vm recipient amount approval = .error .abort) :
    ∃ data answer, vm.sha256 data = some answer ∧ answer.length < 32 := by
  rw [pay_eq] at habort
  rcases bind_eq_error.mp habort with hpolicy | ⟨⟨total, window⟩, hpolicy, habort⟩
  · exact absurd hpolicy payPolicy_ne_abort
  obtain ⟨shown, hshown, hspend⟩ := toU128?_of_payPolicy hpolicy
  rcases bind_eq_error.mp habort with hnone | ⟨shown', -, habort⟩
  · rw [hshown] at hnone
    cases hnone
  rcases bind_eq_error.mp habort with hauth | ⟨⟨next, id⟩, -, habort⟩
  · exact authorize_abort hauth
  dsimp only at habort
  rw [(recordSpend_of_checkSpend hspend next).1, ok_bind] at habort
  rcases bind_eq_error.mp habort with htransfer | ⟨made, -, habort⟩
  · exact absurd htransfer transferUsdg_ne_abort
  rcases bind_eq_error.mp habort with hfee | ⟨made', -, habort⟩
  · exact absurd hfee transferUsdg_ne_abort
  · exact absurd habort pure_ne_error

theorem initializeAccount_ne_abort (c : Configuration) :
    s.initializeAccount host vm c ≠ .error .abort := by
  intro habort
  unfold initializeAccount at habort
  rcases bind_eq_error.mp habort with hinit | ⟨⟨⟩, -, habort⟩
  · simp [rejectIf_eq_error] at hinit
  rcases bind_eq_error.mp habort with hinvalid | ⟨⟨⟩, hvalid, habort⟩
  · simp [rejectIf_eq_error] at hinvalid
  have hpolicy : Config.isValidPolicy c.policy = true := by
    simp only [rejectIf_eq_ok, not_not, Configuration.valid, Bool.and_eq_true] at hvalid
    exact hvalid.2
  obtain ⟨hperTx, hdaily, hnewPayee, hfee⟩ := Config.isValidPolicy_fits hpolicy
  simp only [Configuration.policy] at hperTx hdaily hnewPayee hfee
  simp only [U256.toU128?, U256.toU64?, hperTx, hdaily, hnewPayee, hfee, if_true, orElse,
    ok_bind] at habort
  exact absurd habort pure_ne_error

theorem apply_ne_abort (changeKind : UInt8) (payload : Bytes) :
    s.apply host changeKind payload ≠ .error .abort := by
  intro habort
  have hvalid : Changes.isValid changeKind payload = true := by
    by_contra hinvalid
    unfold apply at habort
    rw [rejectIf, if_pos hinvalid] at habort
    cases habort
  obtain ⟨c, rfl, rfl⟩ := Change.exists_of_isValid hvalid
  rw [apply_payload_eq] at habort
  cases c <;>
    simp [bind_eq_error, map_eq_error, rejectIf_eq_error, pure_ne_error] at habort

end VeraKeyAccount

/-! ## Every reachable state -/

/-- In a call on `s`, no narrowing conversion fails and no sum wraps. -/
structure NoOverflow (host : Host) (vm : Vm) (s : VeraKeyAccount) : Prop where
  checkSpend : ∀ amount, s.checkSpend vm amount ≠ .error .abort ∧
    (amount.toNat ≤ s.perTxCap.toNat →
      ∃ total, (s.window.already vm.blockTimestamp).checkedAdd amount = some total)
  recordSpend : ∀ amount window, s.checkSpend vm amount = .ok window → ∀ s' : VeraKeyAccount,
    s'.recordSpend window = .ok (s'.withWindow window) ∧
      (s'.withWindow window).spentToday.toNat = window.spent.toNat
  chargeFee : ∀ fee, (∃ result, s.chargeFee vm fee = .ok result) ∧
    (s.chargedWindow vm fee).spent.toNat =
      (s.window.already vm.blockTimestamp).toNat + (s.chargedFee vm fee).toNat
  pay : ∀ recipient amount approval, s.pay host vm recipient amount approval = .error .abort →
    ∃ data answer, vm.sha256 data = some answer ∧ answer.length < 32
  initializeAccount : ∀ c, s.initializeAccount host vm c ≠ .error .abort
  apply : ∀ changeKind payload, s.apply host changeKind payload ≠ .error .abort
  ownerCount : ∀ id, (s.pending id).eta ≠ 0 →
    (s.ownerCount + 1).toNat = s.ownerCount.toNat + 1
  nonce : (s.nonce + 1).toNat = s.nonce.toNat + 1
  deadline : (vm.blockTimestamp + maxDeadlineWindow).toNat = vm.blockTimestamp.toNat + 600

namespace Run

variable {r : Run}

theorem spendSum_fits {amount : U256} (hamount : amount.toNat ≤ s.perTxCap.toNat) :
    ∃ total, (s.window.already vm.blockTimestamp).checkedAdd amount = some total := by
  have hcarried := s.carried_lt (Spending.dayOf vm.blockTimestamp)
  have hcap := s.perTxCap.isLt
  rw [← Spending.toNat_already] at hcarried
  exact ⟨_, if_pos (by omega)⟩

theorem chargeSum_fits (fee : U256) : (s.chargedWindow vm fee).spent.toNat =
    (s.window.already vm.blockTimestamp).toNat + (s.chargedFee vm fee).toNat := by
  rw [Spending.toNat_already]
  exact congrArg Counter.total
    (Spending.chargeFee_counter (.ofU128 s.dailyCap) s.window vm.blockTimestamp fee)

/-- A waiting change used a nonce that no owner used. -/
theorem ownerCount_succ (hnonce : r.NonceFits) {n : ℕ} {id : B256}
    (hwaiting : ((r.state n).pending id).eta ≠ 0) :
    ((r.state n).ownerCount + 1).toNat = (r.state n).ownerCount.toNat + 1 := by
  obtain ⟨-, hwithin⟩ := ownerCount_fits hnonce n
  have hone : 1 ≤ (idsWith (· ≠ 0) (r.state n)).ncard :=
    (Set.ncard_pos idsWith_finite).mpr ⟨id, ne_zero_of_eta hwaiting⟩
  have hfits := hnonce n
  unfold OwnersWithinNonce at hwithin
  rw [UInt64.toNat_add, UInt64.toNat_one]
  omega

theorem noOverflow (hclock : r.ClockFits) (hnonce : r.NonceFits) (n : ℕ) :
    NoOverflow r.host (r.vm n) (r.state n) where
  checkSpend amount := ⟨checkSpend_ne_abort amount, spendSum_fits⟩
  recordSpend _ _ hcheck s' := recordSpend_of_checkSpend hcheck s'
  chargeFee fee := ⟨⟨_, chargeFee_eq fee⟩, chargeSum_fits fee⟩
  pay _ _ _ := pay_abort
  initializeAccount := initializeAccount_ne_abort
  apply := apply_ne_abort
  ownerCount _ := ownerCount_succ hnonce
  nonce := by
    have hfits := hnonce n
    rw [UInt64.toNat_add, UInt64.toNat_one]
    omega
  deadline := by
    have hfits := hclock n
    rw [UInt64.toNat_add, show maxDeadlineWindow.toNat = 600 from rfl]
    rw [now] at hfits
    omega

/-- The limits of an initialized account fit together and fit their widths, a fee
within the largest one never breaks the per-payment cap, and no call of the run
overflows. -/
theorem limits_fit (r : Run) (hclock : r.ClockFits) (hinj : r.CollisionFree)
    (hnonce : r.NonceFits) (n : ℕ) :
    ((r.state n).initialized = true →
      0 < (r.state n).perTxCap.toNat ∧
        (r.state n).perTxCap.toNat ≤ (r.state n).dailyCap.toNat ∧
        (r.state n).dailyCap.toNat ≤ 2 ^ 128 - 1 ∧
        (r.state n).maxFee.toNat ≤ (r.state n).perTxCap.toNat ∧
        (r.state n).newPayeeCap.toNat ≤ 2 ^ 128 - 1 ∧
        (r.state n).spentToday.toNat ≤ 2 ^ 128 - 1 ∧
        ∀ fee : U256, fee.toNat ≤ (r.state n).maxFee.toNat →
          (r.state n).checkSpend (r.vm n) fee ≠ .error (.revert .perTxCapExceeded)) ∧
      NoOverflow r.host (r.vm n) (r.state n) := by
  refine ⟨fun hinit => ?_, noOverflow hclock hnonce n⟩
  have hsound := limitsSound hclock hinj n hinit
  refine ⟨hsound.perTx_pos, hsound.perTx_le, Nat.le_pred_of_lt (r.state n).dailyCap.isLt,
    hsound.maxFee_le, Nat.le_pred_of_lt (r.state n).newPayeeCap.isLt,
    Nat.le_pred_of_lt (r.state n).spentToday.isLt, fun fee hfee => ?_⟩
  exact checkSpend_ne_perTxCap (hfee.trans hsound.maxFee_le)

end Run

theorem limits_fit_sample :
    0 < (Sample.run.state 7).perTxCap.toNat ∧
      NoOverflow Sample.host (Sample.run.vm 7) (Sample.run.state 7) := by
  obtain ⟨hlimits, hfits⟩ := Run.limits_fit Sample.run Sample.regular.clockFits
    Sample.regular.collisionFree Sample.nonceFits 7
  exact ⟨(hlimits (Sample.initialized (by decide))).1, hfits⟩

end VeraKey
