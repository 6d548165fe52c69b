/-
Applying and scheduling, read on typed changes: which change a pair of kind and
payload stands for, when it can be applied, and what it leaves behind.
-/
import VeraKey.Authorization
import VeraKey.TypedChange

namespace VeraKey

open ByteCodec Guard

/-- The hash a scheduled change is identified by. -/
def Change.hash (host : Host) (c : Change) : B256 :=
  changeDataHash host c.kind c.payload

@[simp]
theorem fromSlice_bytes (value : B256) : fromSlice value.bytes = .ok value := by
  simp [fromSlice]

namespace VeraKeyAccount

variable {host : Host} {s s' : VeraKeyAccount}

/-- A change that changes owners fits the current owners. -/
def Applicable (host : Host) (s : VeraKeyAccount) : Change → Prop
  | .addOwner nullifier => s.owner host nullifier.value = false
  | .removeOwner nullifier =>
      s.owner host nullifier.value = true ∧ 1 < s.ownerCount.toNat
  | _ => True

/-- The state after a change. -/
def applied (host : Host) (s : VeraKeyAccount) : Change → VeraKeyAccount
  | .addOwner nullifier =>
      { s.setOwner host nullifier.value true with ownerCount := s.ownerCount + 1 }
  | .removeOwner nullifier =>
      { s.setOwner host nullifier.value false with ownerCount := s.ownerCount - 1 }
  | .setLimits perTx daily .. => { s with perTxCap := perTx, dailyCap := daily }
  | .setRecipient recipient _ allowed =>
      { s with
        allowedRecipients := Function.update s.allowedRecipients recipient allowed }
  | .setAllowlist enabled => { s with allowlistEnabled := enabled }
  | .setGuardian commitment =>
      { s with
        guardianCommitment := commitment
        recoveryNullifier := if s.recoveryEta = 0 then s.recoveryNullifier else 0
        recoveryEta := 0 }
  | .setNewPayeeCap cap => { s with newPayeeCap := cap }
  | .freeze => { s with frozen := true }
  | .unfreeze => { s with frozen := false }
  | .setPaymentSheet required => { s with paymentSheetRequired := required }

/-- A replaced guardian's pending recovery is reported as cancelled. -/
def appliedLogs (s : VeraKeyAccount) : Change → List Event
  | .setGuardian _ =>
      if s.recoveryEta = 0 then [] else [.recoveryCancelled s.recoveryNullifier]
  | _ => []

@[simp]
theorem applied_usdg (c : Change) : (s.applied host c).usdg = s.usdg := by
  cases c <;> rfl

@[simp]
theorem applied_feeRecipient (c : Change) :
    (s.applied host c).feeRecipient = s.feeRecipient := by
  cases c <;> rfl

theorem applied_withTable (t : SlotTable.Table maxPending B256 PendingChange)
    (c : Change) : (s.withTable t).applied host c = (s.applied host c).withTable t := by
  cases c <;> rfl

theorem applicable_withTable (t : SlotTable.Table maxPending B256 PendingChange)
    {c : Change} : (s.withTable t).Applicable host c ↔ s.Applicable host c := by
  cases c <;> rfl

/-- What `apply` does with the encoding of a change. -/
theorem apply_payload_eq (c : Change) :
    s.apply host c.kind c.payload = (do
      match c with
      | .addOwner nullifier =>
          rejectIf (s.owner host nullifier.value) (.revert .alreadyOwner)
      | .removeOwner nullifier =>
          rejectIf (¬ s.owner host nullifier.value) (.revert .notOwner)
          rejectIf (s.ownerCount ≤ 1) (.revert .lastOwner)
      | _ => pure ()
      return (s.applied host c, s.appliedLogs c)) := by
  unfold apply
  rw [rejectIf_bind_of_not (not_not.mpr c.isValid_payload)]
  cases c with
  | addOwner nullifier =>
      simp +decide only [Change.kind, Change.payload, fromSlice_bytes]
      rfl
  | removeOwner nullifier =>
      simp +decide only [Change.kind, Change.payload, fromSlice_bytes]
      rfl
  | setLimits perTx daily pos le =>
      simp +decide [Change.kind, Change.payload, applied, appliedLogs]
  | setRecipient recipient ne_zero allowed =>
      simp +decide [Change.kind, Change.payload, applied, appliedLogs]
  | setAllowlist enabled =>
      simp +decide [Change.kind, Change.payload, applied, appliedLogs]
  | setGuardian commitment =>
      by_cases heta : s.recoveryEta = 0
      · simp +decide [Change.kind, Change.payload, applied, appliedLogs, heta]
        rfl
      · simp +decide [Change.kind, Change.payload, applied, appliedLogs, heta,
          clearRecovery]
        rfl
  | setNewPayeeCap cap =>
      simp +decide [Change.kind, Change.payload, applied, appliedLogs]
  | freeze => rfl
  | unfreeze => rfl
  | setPaymentSheet required =>
      simp +decide [Change.kind, Change.payload, applied, appliedLogs]

theorem apply_payload_eq_ok (c : Change) {result : VeraKeyAccount × List Event} :
    s.apply host c.kind c.payload = .ok result ↔
      s.Applicable host c ∧ result = (s.applied host c, s.appliedLogs c) := by
  rw [apply_payload_eq, eq_comm (a := result)]
  cases c with
  | addOwner nullifier => simp [Applicable]
  | removeOwner nullifier => simp [Applicable, UInt64.lt_iff_toNat_lt, and_assoc]
  | _ => simp [Applicable]

/-- Only encodings of changes are applied. -/
theorem apply_eq_ok {changeKind : UInt8} {payload : Bytes}
    {result : VeraKeyAccount × List Event} :
    s.apply host changeKind payload = .ok result ↔
      ∃ c : Change, c.kind = changeKind ∧ c.payload = payload ∧
        s.Applicable host c ∧ result = (s.applied host c, s.appliedLogs c) := by
  constructor
  · intro happly
    have hvalid : Changes.isValid changeKind payload = true := by
      unfold apply at happly
      simp only [bind_eq_ok, rejectIf_eq_ok, not_not] at happly
      obtain ⟨-, hvalid, -⟩ := happly
      exact hvalid
    obtain ⟨c, rfl, rfl⟩ := Change.exists_of_isValid hvalid
    exact ⟨c, rfl, rfl, (apply_payload_eq_ok c).mp happly⟩
  · rintro ⟨c, rfl, rfl, happlies⟩
    exact (apply_payload_eq_ok c).mpr happlies

/-! ## Scheduling -/

/-- How many owner removals wait in the slots. -/
def pendingRemovals (s : VeraKeyAccount) : ℕ :=
  (List.finRange maxPending).countP fun index =>
    s.pendingIds index ≠ 0 ∧ IsRemoval (s.pending (s.pendingIds index))

/-- A change that could apply, also after the removals that already wait. -/
structure Schedulable (host : Host) (s : VeraKeyAccount) (c : Change) : Prop where
  not_freeze : c ≠ .freeze
  keepsFeesPayable : c.KeepsFeesPayable s.maxFee.toNat
  distinct : ∀ index, s.pendingIds index ≠ 0 →
    (s.pending (s.pendingIds index)).payloadHash ≠ c.hash host
  applicable : s.Applicable host c
  leaves_owner : ∀ nullifier, c = .removeOwner nullifier →
    1 + s.pendingRemovals < s.ownerCount.toNat

theorem checkSchedule_ok {changeKind : UInt8} {payload : Bytes} {u : Unit}
    (hcheck : s.checkSchedule host changeKind payload = .ok u) :
    ∃ c : Change, c.kind = changeKind ∧ c.payload = payload ∧ s.Schedulable host c := by
  unfold checkSchedule at hcheck
  simp only [bind_eq_ok, rejectIf_eq_ok, not_or, not_not] at hcheck
  obtain ⟨-, ⟨hfreeze, hvalid, hpayable⟩, removals, hloop, howner⟩ := hcheck
  obtain ⟨c, rfl, rfl⟩ := Change.exists_of_isValid hvalid
  obtain ⟨hdistinct, hcount⟩ := foldlM_checkSlot _ (by decide) hloop
  have hremovals : removals.toNat = s.pendingRemovals := by
    simpa [pendingRemovals] using hcount
  have hbound : s.pendingRemovals ≤ maxPending := by
    have hle := List.countP_le_length (l := List.finRange maxPending)
      (p := fun index => s.pendingIds index ≠ 0 ∧ IsRemoval (s.pending (s.pendingIds index)))
    rwa [List.length_finRange] at hle
  have hpays : c.KeepsFeesPayable s.maxFee.toNat := by
    rw [Change.keepsFeesPayable_payload, feeCeiling, U256.toNat_ofU64] at hpayable
    exact hpayable
  have hnot : c ≠ .freeze := fun heq => hfreeze (heq ▸ rfl)
  have hslots : ∀ index, s.pendingIds index ≠ 0 →
      (s.pending (s.pendingIds index)).payloadHash ≠ c.hash host :=
    fun index => hdistinct index (List.mem_finRange index)
  refine ⟨c, rfl, rfl, ?_⟩
  cases c with
  | addOwner nullifier =>
      simp +decide only [Change.kind, Change.payload, fromSlice_bytes, bind_eq_ok,
        rejectIf_eq_ok, ↓reduceIte, Except.ok.injEq, exists_eq_left'] at howner
      exact ⟨hnot, hpays, hslots, by simpa [Applicable] using howner, by simp⟩
  | removeOwner nullifier =>
      simp +decide only [Change.kind, Change.payload, fromSlice_bytes, bind_eq_ok,
        rejectIf_eq_ok, ↓reduceIte, Except.ok.injEq, exists_eq_left', not_not,
        UInt64.not_le] at howner
      obtain ⟨-, howner, hcountlt⟩ := howner
      have hlt : 1 + s.pendingRemovals < s.ownerCount.toNat := by
        rw [UInt64.lt_iff_toNat_lt, UInt64.toNat_add, hremovals] at hcountlt
        simp only [UInt64.toNat_one] at hcountlt
        simp only [maxPending] at hbound
        omega
      exact ⟨hnot, hpays, hslots, ⟨howner, by omega⟩, fun _ _ => hlt⟩
  | _ => exact ⟨hnot, hpays, hslots, trivial, by simp⟩

end VeraKeyAccount

end VeraKey
