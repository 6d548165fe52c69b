/-
The policy checks of a payment, apart from its approval, and the law that a
tightening change makes none of them pass that did not pass before.
-/
import VeraKey.SafetyActions
import VeraKey.Timelock

namespace VeraKey

open ByteCodec Guard PeriodCounter VeraKeyAccount

namespace VeraKeyAccount

variable {host : Host} {vm : Vm} {s s' : VeraKeyAccount}

/-- The checks `pay` makes before it asks for an approval. -/
def payPolicy (host : Host) (vm : Vm) (s : VeraKeyAccount) (recipient : Address)
    (amount fee : U256) (json : Bytes) : Except Failure (U256 × Spending.Window) := do
  rejectIf s.frozen (.revert .accountFrozen)
  rejectIf (amount = 0) (.revert .invalidAmount)
  rejectIf (recipient = 0 ∨ recipient = host.contractAddress) (.revert .invalidRecipient)
  let allowlisted := s.allowedRecipients recipient
  rejectIf (s.allowlistEnabled ∧ ¬ allowlisted) (.revert .recipientNotAllowed)
  rejectIf (s.paymentSheetRequired ∧ ¬ ClientData.spcPrefix <+: json)
    (.revert .paymentSheetRequired)
  let total ← orElse (amount.checkedAdd fee) (.revert .invalidAmount)
  let window ← s.checkSpend vm total
  rejectIf (¬ s.knownRecipients recipient ∧ ¬ allowlisted ∧ amount > .ofU128 s.newPayeeCap)
    (.revert (.newPayeeCapExceeded (.ofU128 s.newPayeeCap)))
  return (total, window)

/-- `pay` is its policy checks, the approval, and what both allow. -/
theorem pay_eq (recipient : Address) (amount : U256) (approval : Approval) :
    s.pay host vm recipient amount approval = (do
      let (total, window) ←
        s.payPolicy host vm recipient amount approval.fee approval.clientDataJson
      let shown ← orElse total.toU128? .abort
      let (s₁, _) ← s.authorize host vm Kind.pay recipient amount 0 approval
        (some ⟨recipient, shown⟩)
      let s₁ ← s₁.recordSpend window
      let s₁ := if s.knownRecipients recipient then s₁ else s₁.setKnownRecipient recipient
      let transfers ← s₁.transferUsdg vm [] recipient amount
      let transfers ← s₁.payFee vm transfers approval.fee
      return {
        account := s₁
        transfers := transfers
        logs := [.paid s.currentNonce recipient amount approval.fee vm.msgSender]
        returned := none }) := by
  simp only [pay, payPolicy, bind_assoc, pure_bind]

/-- The payment passes every policy check. -/
def PassesPolicy (host : Host) (vm : Vm) (s : VeraKeyAccount) (recipient : Address)
    (amount fee : U256) (json : Bytes) : Prop :=
  (s.payPolicy host vm recipient amount fee json).isOk = true

theorem newPayee_iff {recipient : Address} {amount : U256} :
    (s.knownRecipients recipient = false → s.allowedRecipients recipient = false →
        ¬ amount > .ofU128 s.newPayeeCap) ↔
      s.knownRecipients recipient = true ∨ s.allowedRecipients recipient = true ∨
        amount.toNat ≤ s.newPayeeCap.toNat := by
  rw [gt_iff_lt, BitVec.not_lt, BitVec.le_def, U256.toNat_ofU128]
  by_cases hknown : s.knownRecipients recipient = true
  · simp [hknown]
  · by_cases hallowed : s.allowedRecipients recipient = true <;> simp [hknown, hallowed]

/-- Spending passes exactly within what both caps leave. -/
theorem exists_checkSpend_iff {amount : U256} :
    (∃ window, s.checkSpend vm amount = .ok window) ↔
      amount.toNat ≤ s.perTxCap.toNat ∧
        s.window.counter.carried (Spending.dayOf vm.blockTimestamp) + amount.toNat ≤
          s.dailyCap.toNat := by
  simp only [checkSpend_eq_ok]
  constructor
  · rintro ⟨window, hperTx, hcounts, hdaily⟩
    have htotal : window.spent.toNat =
        s.window.counter.carried (Spending.dayOf vm.blockTimestamp) + amount.toNat :=
      congrArg Counter.total hcounts
    exact ⟨hperTx, htotal ▸ hdaily⟩
  · intro ⟨hperTx, hdaily⟩
    have hcap := s.dailyCap.isLt
    have hspent : (BitVec.ofNat 256 (s.window.counter.carried
        (Spending.dayOf vm.blockTimestamp) + amount.toNat)).toNat =
        s.window.counter.carried (Spending.dayOf vm.blockTimestamp) + amount.toNat :=
      Nat.mod_eq_of_lt (by omega)
    refine ⟨⟨vm.blockTimestamp / Spending.secondsPerDay, BitVec.ofNat 256 _⟩, hperTx,
      ?_, hspent.trans_le hdaily⟩
    exact congrArg (Counter.mk (Spending.dayOf vm.blockTimestamp)) hspent

theorem passesPolicy_iff {recipient : Address} {amount fee : U256} {json : Bytes} :
    s.PassesPolicy host vm recipient amount fee json ↔
      s.PaymentAllowed host recipient amount json ∧
        amount.toNat + fee.toNat ≤ s.perTxCap.toNat ∧
        s.window.counter.carried (Spending.dayOf vm.blockTimestamp) +
          (amount.toNat + fee.toNat) ≤ s.dailyCap.toNat := by
  unfold PassesPolicy payPolicy
  simp only [isOk_iff, bind_eq_ok, rejectIf_eq_ok, orElse_eq_ok, pure_eq_ok, newPayee_iff,
    U256.checkedAdd_eq_some, not_and, not_or, not_not, Bool.not_eq_true]
  constructor
  · rintro ⟨-, -, hfrozen, -, hamount, -, ⟨hzero, hself⟩, -, hlist, -, hsheet, total,
      htotal, window, hspend, -, hpayee, -⟩
    have hcaps := exists_checkSpend_iff.mp ⟨window, hspend⟩
    rw [htotal] at hcaps
    exact ⟨⟨hfrozen, hamount, hzero, hself, by simpa using hlist, hsheet, hpayee⟩, hcaps⟩
  · rintro ⟨hallowed, hperTx, hdaily⟩
    have hcap := s.perTxCap.isLt
    have htotal : (amount + fee).toNat = amount.toNat + fee.toNat := by
      rw [BitVec.toNat_add]
      exact Nat.mod_eq_of_lt (by omega)
    rw [← htotal] at hperTx hdaily
    obtain ⟨window, hspend⟩ := exists_checkSpend_iff.mpr ⟨hperTx, hdaily⟩
    exact ⟨_, ⟨⟩, hallowed.unfrozen, ⟨⟩, hallowed.amount_ne_zero, ⟨⟩,
      ⟨hallowed.recipient_ne_zero, hallowed.recipient_ne_self⟩, ⟨⟩,
      by simpa using hallowed.allowlisted, ⟨⟩, hallowed.sheet, amount + fee, htotal, window,
      hspend, ⟨⟩, hallowed.newPayee, rfl⟩

/-- What passes under tighter protections passed before them, for a payee that was
known as well. -/
theorem PaymentAllowed.of_tightens {recipient : Address} {amount : U256} {json : Bytes}
    (h : s'.PaymentAllowed host recipient amount json)
    (htightens : Tightens s.safeguards s'.safeguards)
    (hknown : s'.knownRecipients = s.knownRecipients) :
    s.PaymentAllowed host recipient amount json where
  unfrozen := by
    by_contra hfrozen
    rw [Bool.not_eq_false] at hfrozen
    have hafter : s'.frozen = true := htightens.frozen hfrozen
    exact Bool.false_ne_true (h.unfrozen.symm.trans hafter)
  amount_ne_zero := h.amount_ne_zero
  recipient_ne_zero := h.recipient_ne_zero
  recipient_ne_self := h.recipient_ne_self
  allowlisted hlist :=
    htightens.recipient recipient (h.allowlisted (htightens.allowlist hlist))
  sheet hrequired := h.sheet (htightens.paymentSheet hrequired)
  newPayee := by
    rcases h.newPayee with hrecipient | hallowed | hcap
    · exact Or.inl (hknown ▸ hrecipient)
    · exact Or.inr (Or.inl (htightens.recipient recipient hallowed))
    · exact Or.inr (Or.inr (hcap.trans htightens.newPayeeCap))

end VeraKeyAccount

/-! ## What a tightening change leaves alone -/

/-- Who controls the account. -/
structure Control where
  owners : B256 → Bool
  ownerCount : UInt64
  ownerEpoch : U256
  guardianCommitment : B256
  recoveryNullifier : B256
  recoveryEta : UInt64

def VeraKeyAccount.control (s : VeraKeyAccount) : Control where
  owners := s.owners
  ownerCount := s.ownerCount
  ownerEpoch := s.ownerEpoch
  guardianCommitment := s.guardianCommitment
  recoveryNullifier := s.recoveryNullifier
  recoveryEta := s.recoveryEta

variable {host : Host} {vm : Vm} {s s' : VeraKeyAccount} {changeKind : UInt8}
  {payload : Bytes} {approval : Approval} {transfers : List Transfer}

/-- A tightening change neither moves control nor makes a payee known. -/
theorem applied_of_restrictive {c : Change} {current : Changes.Limits}
    (hrestrictive : c.Restrictive current) :
    (s.applied host c).control = s.control ∧
      (s.applied host c).knownRecipients = s.knownRecipients := by
  cases c with
  | addOwner => exact absurd hrestrictive id
  | removeOwner => exact absurd hrestrictive id
  | setGuardian => exact absurd hrestrictive id
  | _ => exact ⟨rfl, rfl⟩

theorem Step.control_of_restrict
    (h : Step host vm s (.restrict changeKind payload approval) s' transfers) :
    s'.control = s.control ∧ s'.knownRecipients = s.knownRecipients := by
  cases h with
  | restrict _ hrestrictive =>
      exact applied_of_restrictive (s := s.charged vm approval.fee) hrestrictive
  | restrictFreeze => exact ⟨rfl, rfl⟩

/-- It adds no waiting change. -/
theorem Step.pending_of_restrict
    (h : Step host vm s (.restrict changeKind payload approval) s' transfers) :
    (∀ id, s'.pending id = s.pending id ∨ s'.pending id = 0) ∧
      ∀ index, s'.pendingIds index = s.pendingIds index ∨ s'.pendingIds index = 0 := by
  cases h with
  | @restrict c =>
      have htable : ((s.charged vm approval.fee).applied host c).table = s.table :=
        applied_table c
      exact ⟨fun id => Or.inl (congrFun (congrArg SlotTable.Table.records htable) id),
        fun index => Or.inl (congrFun (congrArg SlotTable.Table.slots htable) index)⟩
  | restrictFreeze =>
      exact ⟨SlotTable.Table.foldl_clearSlot_records _,
        SlotTable.Table.foldl_clearSlot_slots _⟩

theorem Step.tightens_of_restrict
    (h : Step host vm s (.restrict changeKind payload approval) s' transfers)
    (hinit : s.initialized = true) : Tightens s.safeguards s'.safeguards := by
  rcases h.tightens_or_applies hinit with htightens | ⟨changeId, c, happlies⟩
  · exact htightens
  · cases happlies.call_eq

/-- A charge takes nothing away from what the day's cap already counts. -/
theorem Step.carried_le (h : Step host vm s call s' transfers)
    (hperiod : s.window.counter.period ≤ Spending.dayOf vm.blockTimestamp) {later : ℕ}
    (hlater : Spending.dayOf vm.blockTimestamp ≤ later) :
    s.window.counter.carried later ≤ s'.window.counter.carried later := by
  rcases h.ledger with ⟨hsame, -⟩ | ⟨hadd, -⟩
  · rw [hsame]
  · rw [hadd]
    exact Counter.carried_le_add hperiod hlater _

/-- After `restrict`, no payment passes the policy checks that would not have passed
them before it, at its block time or later; the owners, the guardian and a recovery
stay as they were, and no waiting change is added. -/
theorem Run.restrict_tightens (r : Run) (n : ℕ) (changeKind : UInt8) (payload : Bytes)
    (approval : Approval) (hsucceeds : r.Succeeds n)
    (hcall : r.call n = .restrict changeKind payload approval) :
    (∀ (vm : Vm) (recipient : Address) (amount fee : U256) (json : Bytes),
      (r.now n).toNat ≤ vm.blockTimestamp.toNat →
        (r.state (n + 1)).PassesPolicy r.host vm recipient amount fee json →
          (r.state n).PassesPolicy r.host vm recipient amount fee json) ∧
      (r.state (n + 1)).control = (r.state n).control ∧
      (∀ id, (r.state (n + 1)).pending id ≠ 0 →
        (r.state (n + 1)).pending id = (r.state n).pending id) ∧
      ∀ id ∈ (r.state (n + 1)).pendingChangeIds, id ∈ (r.state n).pendingChangeIds := by
  have hstep := hsucceeds.step
  have hinit : (r.state n).initialized = true := by
    obtain ⟨action, happroved⟩ := hstep.approved (by rw [hcall]; rfl)
    obtain ⟨payment, hauth, -⟩ := happroved.authorized
    exact hauth.initialized
  have hcarried : ∀ later, r.day n ≤ later →
      (r.state n).window.counter.carried later ≤
        (r.state (n + 1)).window.counter.carried later :=
    fun later => hstep.carried_le (r.ledger.counter_period_le n)
  rw [hcall] at hstep
  have htightens := hstep.tightens_of_restrict hinit
  obtain ⟨hcontrol, hknown⟩ := hstep.control_of_restrict
  obtain ⟨hrecords, hslots⟩ := hstep.pending_of_restrict
  refine ⟨?_, hcontrol, fun id hne => (hrecords id).resolve_right hne, ?_⟩
  · intro vm recipient amount fee json hnow hpasses
    have hday : r.day n ≤ Spending.dayOf vm.blockTimestamp := by
      rw [day, Spending.dayOf_eq, Spending.dayOf_eq]
      exact Nat.div_le_div_right hnow
    obtain ⟨hallowed, hperTx, hdaily⟩ := passesPolicy_iff.mp hpasses
    refine passesPolicy_iff.mpr ⟨hallowed.of_tightens htightens hknown,
      hperTx.trans htightens.perTxCap, ?_⟩
    exact (Nat.add_le_add_right (hcarried _ hday) _).trans
      (hdaily.trans htightens.dailyCap)
  · intro id hid
    simp only [pendingChangeIds, List.mem_filter, List.mem_map, List.mem_finRange,
      true_and, decide_eq_true_eq] at hid ⊢
    obtain ⟨⟨index, rfl⟩, hne⟩ := hid
    have hsame := (hslots index).resolve_right hne
    exact ⟨⟨index, hsame.symm⟩, hne⟩

/-- A payment of the next day that passes the lowered caps passed the ones before. -/
theorem restrict_tightens_sample :
    (LoweredCap.run.state 3).PassesPolicy LoweredCap.run.host
        (LoweredCap.vmAt 90000 true) Sample.payee 5 1 [] ∧
      (LoweredCap.run.state 2).PassesPolicy LoweredCap.run.host
        (LoweredCap.vmAt 90000 true) Sample.payee 5 1 [] := by
  have hafter : (LoweredCap.run.state (2 + 1)).PassesPolicy LoweredCap.run.host
      (LoweredCap.vmAt 90000 true) Sample.payee 5 1 [] :=
    show _ = true by decide +kernel
  obtain ⟨hpasses, -⟩ := Run.restrict_tightens LoweredCap.run 2 Changes.setLimits
    LoweredCap.limitsPayload (Sample.approvalOf LoweredCap.limitsJson)
    (LoweredCap.succeeds (by decide)) rfl
  exact ⟨hafter, hpasses _ _ _ _ _ (by decide) hafter⟩

end VeraKey
