/-
What one successful call does, said once for every entry point: what it
checked, the storage it leaves, and the transfers it makes.  Changes are typed
here, and the pending loops are operations of the slot table.
-/
import VeraKey.Applied

namespace VeraKey

open ByteCodec Guard PeriodCounter

namespace VeraKeyAccount

variable {host : Host} {vm : Vm} {s s' : VeraKeyAccount}

/-- A spent amount stays within both caps; `window` counts it. -/
structure WithinCaps (vm : Vm) (s : VeraKeyAccount) (amount : ℕ)
    (window : Spending.Window) : Prop where
  perTx : amount ≤ s.perTxCap.toNat
  counts : window.counter =
    s.window.counter.add (Spending.dayOf vm.blockTimestamp) amount
  daily : window.spent.toNat ≤ s.dailyCap.toNat

theorem WithinCaps.fits {amount : ℕ} {window : Spending.Window}
    (h : WithinCaps vm s amount window) : window.spent.toNat < 2 ^ 128 :=
  h.daily.trans_lt s.dailyCap.isLt

/-- The checks of a payment other than its caps and its approval. -/
structure PaymentAllowed (host : Host) (s : VeraKeyAccount) (recipient : Address)
    (amount : U256) (json : Bytes) : Prop where
  unfrozen : s.frozen = false
  amount_ne_zero : amount ≠ 0
  recipient_ne_zero : recipient ≠ 0
  recipient_ne_self : recipient ≠ host.contractAddress
  allowlisted : s.allowlistEnabled = true → s.allowedRecipients recipient = true
  sheet : s.paymentSheetRequired = true → ClientData.spcPrefix <+: json
  newPayee : s.knownRecipients recipient = true ∨
    s.allowedRecipients recipient = true ∨ amount.toNat ≤ s.newPayeeCap.toNat

/-- The action hash of a scheduled change, which becomes its id. -/
def scheduledId (host : Host) (s : VeraKeyAccount) (c : Change) (approval : Approval) :
    B256 :=
  host.keccak
    (s.approvedAction host Kind.scheduleChange 0 0 (c.hash host) approval).encode

/-- The record of a change scheduled now. -/
def scheduledRecord (host : Host) (vm : Vm) (s : VeraKeyAccount) (c : Change) :
    PendingChange where
  changeKind := c.kind
  eta := vm.blockTimestamp + s.scheduleDelay c.kind
  payloadHash := c.hash host
  ownerEpoch := s.ownerEpoch

/-- The state after the fee of a safety action was charged. -/
@[simps -fullyApplied]
def charged (vm : Vm) (s : VeraKeyAccount) (fee : U256) : VeraKeyAccount :=
  { s with
    nonce := s.nonce + 1
    spendDay := (s.chargedWindow vm fee).day
    spentToday := (s.chargedWindow vm fee).spent.setWidth 128 }

theorem charged_eq (fee : U256) :
    s.charged vm fee = s.useNonce.withWindow (s.chargedWindow vm fee) := rfl

end VeraKeyAccount

open VeraKeyAccount

/-- One successful call. -/
inductive Step (host : Host) (vm : Vm) (s : VeraKeyAccount) :
    Call → VeraKeyAccount → List Transfer → Prop
  | initializeAccount {c : Configuration} {perTxCap dailyCap newPayeeCap : U128}
      {maxFee : UInt64} (hinit : s.initialized = false) (hvalid : c.valid = true)
      (hperTx : perTxCap.toNat = c.perTxCap.toNat)
      (hdaily : dailyCap.toNat = c.dailyCap.toNat)
      (hnewPayee : newPayeeCap.toNat = c.newPayeeCap.toNat)
      (hmaxFee : maxFee.toNat = c.maxFee.toNat) :
      Step host vm s (.initializeAccount c)
        { s with
          initialized := true
          factory := vm.msgSender
          changeDelay := c.changeDelay
          verifier := c.verifier
          recoveryDelay := c.recoveryDelay
          usdg := c.usdg
          ownerCount := 1
          perTxCap := perTxCap
          dailyCap := dailyCap
          newPayeeCap := newPayeeCap
          maxFee := maxFee
          feeRecipient := c.feeRecipient
          appId := c.appId
          rpIdHash := c.rpIdHash
          origin := c.origin
          owners := Function.update s.owners
            (ownerKey host s.ownerEpoch c.ownerNullifier) true }
        []
  | pay {recipient : Address} {amount : U256} {approval : Approval} {shown : U128}
      {window : Spending.Window}
      (hallowed : s.PaymentAllowed host recipient amount approval.clientDataJson)
      (hshown : shown.toNat = amount.toNat + approval.fee.toNat)
      (hcaps : s.WithinCaps vm (amount.toNat + approval.fee.toNat) window)
      (hauth : Authorized host vm s
        (s.approvedAction host Kind.pay recipient amount 0 approval) approval
        (some ⟨recipient, shown⟩)) :
      Step host vm s (.pay recipient amount approval)
        ((s.useNonce.withWindow window).setKnownRecipient recipient)
        (s.outgoing recipient amount ++ s.outgoing s.feeRecipient approval.fee)
  | scheduleChange {c : Change} {approval : Approval} {window : Spending.Window}
      {t : SlotTable.Table maxPending B256 PendingChange}
      (hschedulable : s.Schedulable host c)
      (hcaps : s.WithinCaps vm approval.fee.toNat window)
      (hauth : Authorized host vm s
        (s.approvedAction host Kind.scheduleChange 0 0 (c.hash host) approval) approval
        none)
      (htrack : s.table.track (s.scheduledId host c approval) = some t) :
      Step host vm s (.scheduleChange c.kind c.payload approval)
        ((s.useNonce.withWindow window).withTable
          (t.setRecord (s.scheduledId host c approval) (s.scheduledRecord host vm c)))
        (s.outgoing s.feeRecipient approval.fee)
  | restrict {c : Change} {approval : Approval} (hne : c ≠ .freeze)
      (hrestrictive : c.Restrictive s.limits)
      (hpayable : c.KeepsFeesPayable s.maxFee.toNat)
      (hauth : Authorized host vm s
        (s.approvedAction host Kind.restrict 0 0 (c.hash host) approval) approval none)
      (hfits : (s.chargedWindow vm approval.fee).spent.toNat < 2 ^ 128) :
      Step host vm s (.restrict c.kind c.payload approval)
        ((s.charged vm approval.fee).applied host c)
        (s.outgoing s.feeRecipient (s.chargedFee vm approval.fee))
  | restrictFreeze {approval : Approval}
      (hauth : Authorized host vm s
        (s.approvedAction host Kind.restrict 0 0 (Change.freeze.hash host) approval)
        approval none)
      (hfits : (s.chargedWindow vm approval.fee).spent.toNat < 2 ^ 128) :
      Step host vm s (.restrict Changes.freeze [] approval)
        ({ s.charged vm approval.fee with frozen := true }.withTable
          (s.table.clear (keptOnCancel false)))
        (s.outgoing s.feeRecipient (s.chargedFee vm approval.fee))
  | applyChange {changeId : B256} {c : Change} (hinit : s.initialized = true)
      (heta : (s.pending changeId).eta ≠ 0)
      (hkind : (s.pending changeId).changeKind = c.kind)
      (hhash : (s.pending changeId).payloadHash = c.hash host)
      (hepoch : (s.pending changeId).ownerEpoch = s.ownerEpoch)
      (hready : (s.pending changeId).eta ≤ vm.blockTimestamp)
      (happlicable : s.Applicable host c) :
      Step host vm s (.applyChange changeId c.kind c.payload)
        ((s.applied host c).withTable (s.table.remove changeId)) []
  | cancelChange {changeId : B256} {approval : Approval}
      (heta : (s.pending changeId).eta ≠ 0)
      (hauth : Authorized host vm s
        (s.approvedAction host Kind.cancelChange 0 0 changeId approval) approval none)
      (hfits : (s.chargedWindow vm approval.fee).spent.toNat < 2 ^ 128) :
      Step host vm s (.cancelChange changeId approval)
        ((s.charged vm approval.fee).withTable (s.table.remove changeId))
        (s.outgoing s.feeRecipient (s.chargedFee vm approval.fee))
  | guardianCancelChange {changeId salt : B256} (hopens : s.OpensGuardian host vm salt)
      (heta : (s.pending changeId).eta ≠ 0)
      (hkind : (s.pending changeId).changeKind ≠ Changes.setGuardian) :
      Step host vm s (.guardianCancelChange changeId salt)
        (s.withTable (s.table.remove changeId)) []
  | guardianFreeze {salt : B256} (hinit : s.initialized = true)
      (hopens : s.OpensGuardian host vm salt) :
      Step host vm s (.guardianFreeze salt)
        ({ s with frozen := true }.withTable (s.table.clear (keptOnCancel true))) []
  | initiateRecovery (nullifier : Nullifier) {salt : B256} (hinit : s.initialized = true)
      (hopens : s.OpensGuardian host vm salt) :
      Step host vm s (.initiateRecovery nullifier.value salt)
        { s with
          recoveryNullifier := nullifier.value
          recoveryEta := vm.blockTimestamp + s.recoveryDelay } []
  | executeRecovery (heta : s.recoveryEta ≠ 0)
      (hready : s.recoveryEta ≤ vm.blockTimestamp) :
      Step host vm s .executeRecovery
        ({ s with
          recoveryNullifier := 0
          recoveryEta := 0
          ownerEpoch := s.ownerEpoch + 1
          owners := Function.update s.owners
            (ownerKey host (s.ownerEpoch + 1) s.recoveryNullifier) true
          ownerCount := 1 }.withTable (s.table.clear (keptOnCancel false))) []
  | cancelRecovery {approval : Approval} (heta : s.recoveryEta ≠ 0)
      (hauth : Authorized host vm s
        (s.approvedAction host Kind.cancelRecovery 0 0 s.recoveryNullifier approval)
        approval none)
      (hfits : (s.chargedWindow vm approval.fee).spent.toNat < 2 ^ 128) :
      Step host vm s (.cancelRecovery approval)
        { s.charged vm approval.fee with recoveryNullifier := 0, recoveryEta := 0 }
        (s.outgoing s.feeRecipient (s.chargedFee vm approval.fee))
  | guardianCancelRecovery {salt : B256} (hopens : s.OpensGuardian host vm salt)
      (heta : s.recoveryEta ≠ 0) :
      Step host vm s (.guardianCancelRecovery salt)
        { s with recoveryNullifier := 0, recoveryEta := 0 } []

/-! ## Every successful call is a step -/

theorem Step.cast {host : Host} {vm : Vm} {s s₁ s₂ : VeraKeyAccount} {call : Call}
    {transfers₁ transfers₂ : List Transfer} (h : Step host vm s call s₁ transfers₁)
    (hstate : s₂ = s₁) (htransfers : transfers₂ = transfers₁) :
    Step host vm s call s₂ transfers₂ := by
  rw [hstate, htransfers]
  exact h

namespace VeraKeyAccount

variable {host : Host} {vm : Vm} {s s' : VeraKeyAccount} {out : Outcome}

theorem withinCaps_of_checkSpend {amount : U256} {window : Spending.Window}
    (hcheck : s.checkSpend vm amount = .ok window) :
    s.WithinCaps vm amount.toNat window := by
  obtain ⟨hperTx, hcounts, hdaily⟩ := checkSpend_eq_ok.mp hcheck
  exact ⟨hperTx, hcounts, hdaily⟩

theorem step_initializeAccount {c : Configuration}
    (hexec : s.initializeAccount host vm c = .ok out) :
    Step host vm s (.initializeAccount c) out.account out.transfers := by
  unfold initializeAccount at hexec
  simp only [bind_eq_ok, rejectIf_eq_ok, orElse_eq_ok, pure_eq_ok, Bool.not_eq_true,
    Bool.not_eq_false, U256.toU128?_eq_some, U256.toU64?_eq_some] at hexec
  obtain ⟨-, hinit, -, hvalid, perTxCap, hperTx, dailyCap, hdaily, newPayeeCap,
    hnewPayee, maxFee, hmaxFee, rfl⟩ := hexec
  exact .initializeAccount hinit hvalid hperTx hdaily hnewPayee hmaxFee

theorem setKnownRecipient_of_known {recipient : Address}
    (hknown : s.knownRecipients recipient = true) :
    s.setKnownRecipient recipient = s := by
  rw [setKnownRecipient, ← hknown, Function.update_eq_self]

theorem step_pay {recipient : Address} {amount : U256} {approval : Approval}
    (hexec : s.pay host vm recipient amount approval = .ok out) :
    Step host vm s (.pay recipient amount approval) out.account out.transfers := by
  unfold pay at hexec
  simp only [bind_eq_ok, rejectIf_eq_ok, orElse_eq_ok, pure_eq_ok, Prod.exists,
    authorize_eq_ok, recordSpend_eq_ok, transferUsdg_eq_ok, payFee_eq_ok, not_and,
    not_or, not_not, Bool.not_eq_true, U256.checkedAdd_eq_some,
    U256.toU128?_eq_some] at hexec
  obtain ⟨-, hfrozen, -, hamount, -, ⟨hzero, hself⟩, -, hlist, -, hsheet, total, htotal,
    window, hspend, -, hpayee, shown, hshown, next, id, ⟨hauth, rfl, rfl⟩, final,
    ⟨hfits, rfl⟩, made, ⟨-, rfl⟩, made', ⟨-, rfl⟩, rfl⟩ := hexec
  have hcaps := withinCaps_of_checkSpend hspend
  rw [htotal] at hcaps hshown
  have hknown : (if s.knownRecipients recipient = true then s.useNonce.withWindow window
      else (s.useNonce.withWindow window).setKnownRecipient recipient) =
        (s.useNonce.withWindow window).setKnownRecipient recipient := by
    split
    · rename_i hknown
      exact (setKnownRecipient_of_known
        (s := s.useNonce.withWindow window) hknown).symm
    · rfl
  rw [hknown]
  have hallowed : s.PaymentAllowed host recipient amount approval.clientDataJson := by
    refine ⟨hfrozen, hamount, hzero, hself, by simpa using hlist, hsheet, ?_⟩
    by_cases hk : s.knownRecipients recipient = true
    · exact Or.inl hk
    · by_cases ha : s.allowedRecipients recipient = true
      · exact Or.inr (Or.inl ha)
      · have hle := hpayee (by simpa using hk) (by simpa using ha)
        rw [gt_iff_lt, BitVec.not_lt, BitVec.le_def, U256.toNat_ofU128] at hle
        exact Or.inr (Or.inr hle)
  exact .pay hallowed hshown hcaps hauth

theorem scheduledRecord_eq {c : Change} (hdelay : s'.changeDelay = s.changeDelay)
    (hrecovery : s'.recoveryDelay = s.recoveryDelay)
    (hepoch : s'.ownerEpoch = s.ownerEpoch) :
    s'.scheduledRecord host vm c = s.scheduledRecord host vm c := by
  rw [scheduledRecord, scheduledRecord, scheduleDelay, scheduleDelay, hdelay, hrecovery,
    hepoch]

theorem step_scheduleChange {changeKind : UInt8} {payload : Bytes} {approval : Approval}
    (hexec : s.scheduleChange host vm changeKind payload approval = .ok out) :
    Step host vm s (.scheduleChange changeKind payload approval) out.account
      out.transfers := by
  unfold scheduleChange at hexec
  simp only [bind_eq_ok, pure_eq_ok, Prod.exists, authorize_eq_ok, recordSpend_eq_ok,
    trackPending_eq_ok, payFee_eq_ok, List.nil_append] at hexec
  obtain ⟨_, hcheck, window, hspend, next, id, ⟨hauth, rfl, rfl⟩, final, ⟨hfits, rfl⟩,
    tracked, ⟨t, htrack, rfl⟩, made, ⟨-, rfl⟩, rfl⟩ := hexec
  obtain ⟨c, rfl, rfl, hschedulable⟩ := checkSchedule_ok hcheck
  have hcaps := withinCaps_of_checkSpend hspend
  have htrack : s.table.track (s.scheduledId host c approval) = some t := htrack
  have hrecord : ((s.useNonce.withWindow window).withTable t).scheduledRecord host vm c =
      s.scheduledRecord host vm c :=
    scheduledRecord_eq (by simp) (by simp) (by simp)
  refine (Step.scheduleChange hschedulable hcaps hauth htrack).cast ?_
    (outgoing_fee_eq (by simp) (by simp))
  rw [← hrecord]
  rfl

theorem step_restrict {changeKind : UInt8} {payload : Bytes} {approval : Approval}
    (hexec : s.restrict host vm changeKind payload approval = .ok out) :
    Step host vm s (.restrict changeKind payload approval) out.account
      out.transfers := by
  unfold restrict at hexec
  simp only [bind_eq_ok, rejectIf_eq_ok, pure_eq_ok, Prod.exists, authorize_eq_ok,
    chargeFee_eq_ok, apply_eq_ok, payFee_eq_ok, List.nil_append, not_not] at hexec
  obtain ⟨-, hrestrictive, -, hpayable, next, id, ⟨hauth, rfl, rfl⟩, final, fee,
    ⟨hfits, rfl, rfl⟩, changed, logs, ⟨c, rfl, rfl, -, hchanged⟩, made, ⟨-, rfl⟩,
    rfl⟩ := hexec
  obtain ⟨rfl, rfl⟩ := Prod.mk.inj hchanged
  rw [c.isRestrictive_payload] at hrestrictive
  rw [c.keepsFeesPayable_payload, feeCeiling, U256.toNat_ofU64] at hpayable
  by_cases hfreeze : c = .freeze
  · subst hfreeze
    rw [if_pos (show Change.freeze.kind = Changes.freeze from rfl),
      cancelPendingChanges_fst]
    exact (Step.restrictFreeze hauth hfits).cast rfl (outgoing_fee_eq rfl rfl)
  · rw [if_neg (fun hkind => hfreeze (Change.kind_eq_freeze.mp hkind))]
    exact (Step.restrict hfreeze hrestrictive hpayable hauth hfits).cast rfl
      (outgoing_fee_eq (applied_usdg c) (applied_feeRecipient c))

theorem step_applyChange {changeId : B256} {changeKind : UInt8} {payload : Bytes}
    (hexec : s.applyChange host vm changeId changeKind payload = .ok out) :
    Step host vm s (.applyChange changeId changeKind payload) out.account
      out.transfers := by
  unfold applyChange at hexec
  simp only [bind_eq_ok, rejectIf_eq_ok, pure_eq_ok, Prod.exists, apply_eq_ok,
    clearPending_eq_remove, not_or, not_not, UInt64.not_lt] at hexec
  obtain ⟨-, hinit, -, ⟨heta, hkind, hhash, hepoch⟩, -, hready, changed, logs,
    ⟨c, rfl, rfl, happlicable, hchanged⟩, rfl⟩ := hexec
  obtain ⟨rfl, rfl⟩ := Prod.mk.inj hchanged
  exact (Step.applyChange hinit heta hkind hhash hepoch hready
    ((applicable_withTable _).mp happlicable)).cast (applied_withTable _ c) rfl

theorem step_cancelChange {changeId : B256} {approval : Approval}
    (hexec : s.cancelChange host vm changeId approval = .ok out) :
    Step host vm s (.cancelChange changeId approval) out.account out.transfers := by
  unfold cancelChange at hexec
  simp only [bind_eq_ok, rejectIf_eq_ok, pure_eq_ok, Prod.exists, authorize_eq_ok,
    chargeFee_eq_ok, payFee_eq_ok, clearPending_eq_remove, List.nil_append] at hexec
  obtain ⟨-, heta, next, id, ⟨hauth, rfl, rfl⟩, final, fee, ⟨hfits, rfl, rfl⟩, made,
    ⟨-, rfl⟩, rfl⟩ := hexec
  exact (Step.cancelChange heta hauth hfits).cast rfl
    (outgoing_fee_eq (by simp) (by simp))

theorem step_guardianCancelChange {changeId salt : B256}
    (hexec : s.guardianCancelChange host vm changeId salt = .ok out) :
    Step host vm s (.guardianCancelChange changeId salt) out.account out.transfers := by
  unfold guardianCancelChange at hexec
  simp only [bind_eq_ok, rejectIf_eq_ok, pure_eq_ok, requireGuardian_eq_ok,
    clearPending_eq_remove] at hexec
  obtain ⟨-, hopens, -, heta, -, hkind, rfl⟩ := hexec
  exact .guardianCancelChange hopens heta hkind

theorem step_guardianFreeze {salt : B256}
    (hexec : s.guardianFreeze host vm salt = .ok out) :
    Step host vm s (.guardianFreeze salt) out.account out.transfers := by
  unfold guardianFreeze at hexec
  simp only [bind_eq_ok, rejectIf_eq_ok, pure_eq_ok, requireGuardian_eq_ok,
    not_not] at hexec
  obtain ⟨-, hinit, -, hopens, rfl⟩ := hexec
  exact (Step.guardianFreeze hinit hopens).cast (cancelPendingChanges_fst true) rfl

theorem step_initiateRecovery {newNullifier salt : B256}
    (hexec : s.initiateRecovery host vm newNullifier salt = .ok out) :
    Step host vm s (.initiateRecovery newNullifier salt) out.account out.transfers := by
  unfold initiateRecovery at hexec
  simp only [bind_eq_ok, rejectIf_eq_ok, pure_eq_ok, requireGuardian_eq_ok, not_or,
    not_not] at hexec
  obtain ⟨-, hinit, -, hopens, -, ⟨hzero, hcanonical⟩, rfl⟩ := hexec
  exact .initiateRecovery ⟨newNullifier, hzero, hcanonical⟩ hinit hopens

theorem step_executeRecovery (hexec : s.executeRecovery host vm = .ok out) :
    Step host vm s .executeRecovery out.account out.transfers := by
  unfold executeRecovery at hexec
  simp only [bind_eq_ok, rejectIf_eq_ok, pure_eq_ok, clearRecovery, UInt64.not_lt,
    cancelPendingChanges_fst] at hexec
  obtain ⟨-, heta, -, hready, rfl⟩ := hexec
  exact (Step.executeRecovery heta hready).cast rfl rfl

theorem step_cancelRecovery {approval : Approval}
    (hexec : s.cancelRecovery host vm approval = .ok out) :
    Step host vm s (.cancelRecovery approval) out.account out.transfers := by
  unfold cancelRecovery at hexec
  simp only [bind_eq_ok, rejectIf_eq_ok, pure_eq_ok, Prod.exists, authorize_eq_ok,
    chargeFee_eq_ok, payFee_eq_ok, clearRecovery, List.nil_append] at hexec
  obtain ⟨-, heta, next, id, ⟨hauth, rfl, rfl⟩, final, fee, ⟨hfits, rfl, rfl⟩, made,
    ⟨-, rfl⟩, rfl⟩ := hexec
  exact (Step.cancelRecovery heta hauth hfits).cast rfl
    (outgoing_fee_eq (by simp) (by simp))

theorem step_guardianCancelRecovery {salt : B256}
    (hexec : s.guardianCancelRecovery host vm salt = .ok out) :
    Step host vm s (.guardianCancelRecovery salt) out.account out.transfers := by
  unfold guardianCancelRecovery at hexec
  simp only [bind_eq_ok, rejectIf_eq_ok, pure_eq_ok, requireGuardian_eq_ok,
    clearRecovery] at hexec
  obtain ⟨-, hopens, -, heta, rfl⟩ := hexec
  exact .guardianCancelRecovery hopens heta

end VeraKeyAccount

/-- The executable entry points refine the step relation. -/
theorem step_of_exec {host : Host} {vm : Vm} {s : VeraKeyAccount} {call : Call}
    {out : Outcome} (hexec : s.exec host vm call = .ok out) :
    Step host vm s call out.account out.transfers := by
  cases call with
  | initializeAccount configuration => exact step_initializeAccount hexec
  | pay recipient amount approval => exact step_pay hexec
  | scheduleChange changeKind payload approval => exact step_scheduleChange hexec
  | restrict changeKind payload approval => exact step_restrict hexec
  | applyChange changeId changeKind payload => exact step_applyChange hexec
  | cancelChange changeId approval => exact step_cancelChange hexec
  | guardianCancelChange changeId salt => exact step_guardianCancelChange hexec
  | guardianFreeze salt => exact step_guardianFreeze hexec
  | initiateRecovery newNullifier salt => exact step_initiateRecovery hexec
  | executeRecovery => exact step_executeRecovery hexec
  | cancelRecovery approval => exact step_cancelRecovery hexec
  | guardianCancelRecovery salt => exact step_guardianCancelRecovery hexec

end VeraKey
