/-
What the private methods establish when they succeed: an authorization, a
charge, a transfer, the guardian's opening of its commitment.
-/
import VeraKey.PendingTable

namespace VeraKey

open ByteCodec Guard PeriodCounter

/-- The owner's approval of `action` holds up on the state `s`. -/
structure Authorized (host : Host) (vm : Vm) (s : VeraKeyAccount) (action : Action)
    (approval : Approval) (payment : Option ClientData.Payment) : Prop where
  initialized : s.initialized = true
  fee_le : approval.fee ≤ s.feeCeiling
  not_expired : vm.blockTimestamp ≤ approval.deadline
  not_too_far : approval.deadline ≤ vm.blockTimestamp + maxDeadlineWindow
  owner : s.owner host approval.nullifier = true
  clientData : s.checkClientData vm (host.keccak action.encode) approval.clientDataJson
    payment = .ok ()
  proof : ∃ digest, sha256 vm approval.clientDataJson = .ok digest ∧
    vm.verify s.verifier approval.proof
      (s.publicInputs digest approval.nullifier) = true

namespace Authorized

variable {host : Host} {vm : Vm} {s : VeraKeyAccount} {action : Action}
  {approval : Approval} {payment : Option ClientData.Payment}

theorem fee_le_maxFee (h : Authorized host vm s action approval payment) :
    approval.fee.toNat ≤ s.maxFee.toNat := by
  have hfee := BitVec.le_def.mp h.fee_le
  rwa [VeraKeyAccount.feeCeiling, U256.toNat_ofU64] at hfee

/-- The block time is at most ten minutes before the deadline. -/
theorem deadline_le (h : Authorized host vm s action approval payment) :
    approval.deadline.toNat ≤ vm.blockTimestamp.toNat + 600 := by
  have hfar := UInt64.le_iff_toNat_le.mp h.not_too_far
  rw [UInt64.toNat_add, show maxDeadlineWindow.toNat = 600 from rfl] at hfar
  exact hfar.trans (Nat.mod_le _ _)

end Authorized

namespace VeraKeyAccount

variable {host : Host} {vm : Vm} {s s' : VeraKeyAccount}

/-- The state after an authorization. -/
@[simps -fullyApplied]
def useNonce (s : VeraKeyAccount) : VeraKeyAccount := { s with nonce := s.nonce + 1 }

theorem authorize_eq_ok {actionKind : UInt8} {target : Address} {amount : U256}
    {dataHash actionHash : B256} {approval : Approval}
    {payment : Option ClientData.Payment} :
    s.authorize host vm actionKind target amount dataHash approval payment =
        .ok (s', actionHash) ↔
      Authorized host vm s
          (s.approvedAction host actionKind target amount dataHash approval)
          approval payment ∧
        s' = s.useNonce ∧ actionHash = host.keccak
          (s.approvedAction host actionKind target amount dataHash approval).encode := by
  unfold authorize
  simp only [bind_eq_ok, rejectIf_eq_ok, pure_eq_ok, Prod.mk.injEq, not_not, gt_iff_lt,
    UInt64.not_lt, BitVec.not_lt]
  constructor
  · rintro ⟨-, hinit, -, hfee, -, hexpired, -, hfar, -, howner, ⟨⟩, hjson, digest,
      hdigest, -, hproof, rfl, rfl⟩
    exact ⟨⟨hinit, hfee, hexpired, hfar, howner, hjson, digest, hdigest, hproof⟩,
      rfl, rfl⟩
  · rintro ⟨⟨hinit, hfee, hexpired, hfar, howner, hjson, digest, hdigest, hproof⟩,
      rfl, rfl⟩
    exact ⟨⟨⟩, hinit, ⟨⟩, hfee, ⟨⟩, hexpired, ⟨⟩, hfar, ⟨⟩, howner, ⟨⟩, hjson, digest,
      hdigest, ⟨⟩, hproof, rfl, rfl⟩

/-! ## Spending -/

/-- Writes back a window whose amount fits. -/
@[simps -fullyApplied]
def withWindow (s : VeraKeyAccount) (window : Spending.Window) : VeraKeyAccount :=
  { s with spendDay := window.day, spentToday := window.spent.setWidth 128 }

theorem recordSpend_eq_ok {window : Spending.Window} :
    s.recordSpend window = .ok s' ↔
      window.spent.toNat < 2 ^ 128 ∧ s' = s.withWindow window := by
  simp only [recordSpend, bind_eq_ok, orElse_eq_ok, pure_eq_ok, U256.toU128?]
  split
  · rename_i hfits
    simp only [hfits, Option.some.injEq, true_and]
    constructor
    · rintro ⟨spent, rfl, rfl⟩
      rfl
    · rintro rfl
      exact ⟨_, rfl, rfl⟩
  · rename_i hfits
    simp only [reduceCtorEq, false_and, exists_false, hfits]

theorem counter_withWindow {window : Spending.Window}
    (hfits : window.spent.toNat < 2 ^ 128) :
    (s.withWindow window).window.counter = window.counter := by
  simp only [withWindow, VeraKeyAccount.window, Spending.Window.counter,
    U256.toNat_ofU128, BitVec.toNat_setWidth, Nat.mod_eq_of_lt hfits]

theorem checkSpend_eq_ok {amount : U256} {window : Spending.Window} :
    s.checkSpend vm amount = .ok window ↔
      amount.toNat ≤ s.perTxCap.toNat ∧
        window.counter =
          s.window.counter.add (Spending.dayOf vm.blockTimestamp) amount.toNat ∧
        window.spent.toNat ≤ s.dailyCap.toNat := by
  rw [checkSpend, mapError_eq_ok, Spending.spend_eq_ok, U256.toNat_ofU128,
    U256.toNat_ofU128]

/-- The window after charging a safety action's fee. -/
def chargedWindow (vm : Vm) (s : VeraKeyAccount) (fee : U256) : Spending.Window :=
  (Spending.chargeFee (.ofU128 s.dailyCap) s.window vm.blockTimestamp fee).1

/-- The part of a safety action's fee that is paid. -/
def chargedFee (vm : Vm) (s : VeraKeyAccount) (fee : U256) : U256 :=
  (Spending.chargeFee (.ofU128 s.dailyCap) s.window vm.blockTimestamp fee).2

theorem chargeFee_eq_ok {fee charged : U256} :
    s.chargeFee vm fee = .ok (s', charged) ↔
      (s.chargedWindow vm fee).spent.toNat < 2 ^ 128 ∧
        s' = s.withWindow (s.chargedWindow vm fee) ∧ charged = s.chargedFee vm fee := by
  simp only [chargeFee, bind_eq_ok, recordSpend_eq_ok, pure_eq_ok, Prod.mk.injEq]
  constructor
  · rintro ⟨next, ⟨hfits, rfl⟩, rfl, rfl⟩
    exact ⟨hfits, rfl, rfl⟩
  · rintro ⟨hfits, rfl, rfl⟩
    exact ⟨_, ⟨hfits, rfl⟩, rfl, rfl⟩

theorem chargedFee_le (fee : U256) : (s.chargedFee vm fee).toNat ≤ fee.toNat := by
  rw [chargedFee, Spending.toNat_chargeFee]
  exact Nat.min_le_left _ _

/-! ## Transfers -/

/-- The transfers one payment makes: none when nothing is paid. -/
def outgoing (s : VeraKeyAccount) (recipient : Address) (amount : U256) :
    List Transfer :=
  if amount = 0 then [] else [⟨s.usdg, recipient, amount⟩]

theorem transferUsdg_eq_ok {made made' : List Transfer} {recipient : Address}
    {amount : U256} :
    s.transferUsdg vm made recipient amount = .ok made' ↔
      (amount ≠ 0 → vm.transfer made ⟨s.usdg, recipient, amount⟩ = true) ∧
        made' = made ++ s.outgoing recipient amount := by
  unfold transferUsdg outgoing
  by_cases hzero : amount = 0
  · rw [if_pos hzero, if_pos hzero, pure_eq_ok, List.append_nil]
    exact ⟨fun h => ⟨fun hne => absurd hzero hne, h.symm⟩, fun h => h.2.symm⟩
  · rw [if_neg hzero, if_neg hzero]
    simp only [bind_eq_ok, rejectIf_eq_ok, not_not, pure_eq_ok]
    constructor
    · rintro ⟨-, haccepted, rfl⟩
      exact ⟨fun _ => haccepted, rfl⟩
    · rintro ⟨haccepted, rfl⟩
      exact ⟨⟨⟩, haccepted hzero, rfl⟩

theorem payFee_eq_ok {made made' : List Transfer} {fee : U256} :
    s.payFee vm made fee = .ok made' ↔
      (fee ≠ 0 → vm.transfer made ⟨s.usdg, s.feeRecipient, fee⟩ = true) ∧
        made' = made ++ s.outgoing s.feeRecipient fee :=
  transferUsdg_eq_ok

theorem outgoing_fee_eq {fee : U256} (husdg : s'.usdg = s.usdg)
    (hrecipient : s'.feeRecipient = s.feeRecipient) :
    s'.outgoing s'.feeRecipient fee = s.outgoing s.feeRecipient fee := by
  rw [outgoing, outgoing, husdg, hrecipient]

/-- The amounts of the transfers, summed. -/
def totalOut (transfers : List Transfer) : ℕ :=
  (transfers.map fun transfer => transfer.amount.toNat).sum

@[simp]
theorem totalOut_append (first rest : List Transfer) :
    totalOut (first ++ rest) = totalOut first + totalOut rest := by
  simp [totalOut]

@[simp]
theorem totalOut_outgoing (recipient : Address) (amount : U256) :
    totalOut (s.outgoing recipient amount) = amount.toNat := by
  unfold outgoing totalOut
  split
  · rename_i hzero
    simp [hzero]
  · simp

/-! ## The guardian -/

/-- The caller opens the guardian commitment with `salt`. -/
def OpensGuardian (host : Host) (vm : Vm) (s : VeraKeyAccount) (salt : B256) : Prop :=
  s.guardianCommitment ≠ 0 ∧
    host.keccak (Changes.guardianPreimage host.contractAddress vm.msgSender salt) =
      s.guardianCommitment

theorem requireGuardian_eq_ok {salt : B256} {u : Unit} :
    s.requireGuardian host vm salt = .ok u ↔ s.OpensGuardian host vm salt := by
  simp [requireGuardian, OpensGuardian]

end VeraKeyAccount

end VeraKey
