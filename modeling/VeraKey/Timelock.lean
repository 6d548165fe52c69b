/-
The timelock: a step that turns a protection down, changes who guards the
account, or changes who owns it, applies a change that waited its full delay.
Only a recovery replaces the owners otherwise.
-/
import VeraKey.OwnerSet

namespace VeraKey

open ByteCodec VeraKeyAccount KeyedSet

/-- The protections of an account. -/
structure Safeguards where
  perTxCap : U128
  dailyCap : U128
  newPayeeCap : U128
  allowedRecipients : Address → Bool
  allowlistEnabled : Bool
  frozen : Bool
  paymentSheetRequired : Bool
  guardianCommitment : B256

def VeraKeyAccount.safeguards (s : VeraKeyAccount) : Safeguards where
  perTxCap := s.perTxCap
  dailyCap := s.dailyCap
  newPayeeCap := s.newPayeeCap
  allowedRecipients := s.allowedRecipients
  allowlistEnabled := s.allowlistEnabled
  frozen := s.frozen
  paymentSheetRequired := s.paymentSheetRequired
  guardianCommitment := s.guardianCommitment

/-- Some protection was turned down, or another guardian was named. -/
inductive Loosens (before after : Safeguards) : Prop
  | perTxCap (hraised : before.perTxCap.toNat < after.perTxCap.toNat)
  | dailyCap (hraised : before.dailyCap.toNat < after.dailyCap.toNat)
  | newPayeeCap (hraised : before.newPayeeCap.toNat < after.newPayeeCap.toNat)
  | recipient (recipient : Address) (hbefore : before.allowedRecipients recipient = false)
      (hafter : after.allowedRecipients recipient = true)
  | allowlist (hbefore : before.allowlistEnabled = true)
      (hafter : after.allowlistEnabled = false)
  | unfrozen (hbefore : before.frozen = true) (hafter : after.frozen = false)
  | paymentSheet (hbefore : before.paymentSheetRequired = true)
      (hafter : after.paymentSheetRequired = false)
  | guardian (hchanged : after.guardianCommitment ≠ before.guardianCommitment)

/-- Every protection is at least as tight as before. -/
structure Tightens (before after : Safeguards) : Prop where
  perTxCap : after.perTxCap.toNat ≤ before.perTxCap.toNat
  dailyCap : after.dailyCap.toNat ≤ before.dailyCap.toNat
  newPayeeCap : after.newPayeeCap.toNat ≤ before.newPayeeCap.toNat
  recipient : ∀ recipient, after.allowedRecipients recipient = true →
    before.allowedRecipients recipient = true
  allowlist : before.allowlistEnabled = true → after.allowlistEnabled = true
  frozen : before.frozen = true → after.frozen = true
  paymentSheet : before.paymentSheetRequired = true → after.paymentSheetRequired = true
  guardian : after.guardianCommitment = before.guardianCommitment

theorem Tightens.refl (safeguards : Safeguards) : Tightens safeguards safeguards :=
  ⟨le_rfl, le_rfl, le_rfl, fun _ => id, id, id, id, rfl⟩

theorem Tightens.not_loosens {before after : Safeguards} (h : Tightens before after) :
    ¬ Loosens before after := by
  intro hloosens
  cases hloosens with
  | perTxCap hraised => exact hraised.not_ge h.perTxCap
  | dailyCap hraised => exact hraised.not_ge h.dailyCap
  | newPayeeCap hraised => exact hraised.not_ge h.newPayeeCap
  | recipient recipient hbefore hafter =>
      exact Bool.false_ne_true (hbefore.symm.trans (h.recipient recipient hafter))
  | allowlist hbefore hafter =>
      exact Bool.false_ne_true (hafter.symm.trans (h.allowlist hbefore))
  | unfrozen hbefore hafter =>
      exact Bool.false_ne_true (hafter.symm.trans (h.frozen hbefore))
  | paymentSheet hbefore hafter =>
      exact Bool.false_ne_true (hafter.symm.trans (h.paymentSheet hbefore))
  | guardian hchanged => exact hchanged h.guardian

variable {host : Host} {vm : Vm} {s s' : VeraKeyAccount} {call : Call}
  {transfers : List Transfer}

/-- What may be applied at once turns no protection down. -/
theorem tightens_of_restrictive {c : Change} (hrestrictive : c.Restrictive s.limits) :
    Tightens s.safeguards (s.applied host c).safeguards := by
  have hrefl := Tightens.refl s.safeguards
  cases c with
  | setLimits perTx daily =>
      simp only [Change.Restrictive, limits, U256.toNat_ofU128] at hrestrictive
      exact { hrefl with perTxCap := hrestrictive.1, dailyCap := hrestrictive.2 }
  | setNewPayeeCap cap =>
      simp only [Change.Restrictive, limits, U256.toNat_ofU128] at hrestrictive
      exact { hrefl with newPayeeCap := hrestrictive }
  | setRecipient recipient ne_zero allowed =>
      refine { hrefl with recipient := fun other hallowed => ?_ }
      have hupdate : Function.update s.allowedRecipients recipient allowed other = true :=
        hallowed
      rw [Function.update_apply, show allowed = false from hrestrictive] at hupdate
      split at hupdate
      · exact absurd hupdate Bool.false_ne_true
      · exact hupdate
  | setAllowlist enabled => exact { hrefl with allowlist := fun _ => hrestrictive }
  | setPaymentSheet required =>
      exact { hrefl with paymentSheet := fun _ => hrestrictive }
  | freeze => exact { hrefl with frozen := fun _ => rfl }
  | addOwner => exact absurd hrestrictive id
  | removeOwner => exact absurd hrestrictive id
  | setGuardian => exact absurd hrestrictive id
  | unfreeze => exact absurd hrestrictive id

/-- Only an applied change turns a protection down. -/
theorem Step.tightens_or_applies (h : Step host vm s call s' transfers)
    (hinit : s.initialized = true) :
    Tightens s.safeguards s'.safeguards ∨
      ∃ changeId c, Applies host vm s s' call changeId c := by
  have hrefl := Tightens.refl s.safeguards
  cases h with
  | initializeAccount hfresh => exact absurd (hinit.symm.trans hfresh) (by decide)
  | restrict _ hrestrictive =>
      exact Or.inl (tightens_of_restrictive (s := s.charged vm _) hrestrictive)
  | restrictFreeze => exact Or.inl { hrefl with frozen := fun _ => rfl }
  | guardianFreeze => exact Or.inl { hrefl with frozen := fun _ => rfl }
  | applyChange hinit heta hkind hhash hepoch hready happlicable =>
      exact Or.inr ⟨_, _, rfl, hinit, heta, ⟨hkind, hhash⟩, hepoch, hready, happlicable, rfl⟩
  | _ => exact Or.inl hrefl

/-- Only an applied change or a recovery changes who owns the account. -/
theorem Step.owner_eq_or (h : Step host vm s call s' transfers)
    (hinit : s.initialized = true) :
    (∀ nullifier, s'.owner host nullifier = s.owner host nullifier) ∨
      call = .executeRecovery ∨
      ∃ changeId changeKind payload, call = .applyChange changeId changeKind payload := by
  cases h.ownersMove with
  | same howners _ hepoch =>
      left
      intro nullifier
      rw [owner, owner, howners, hepoch]
  | initialized hfresh => exact absurd (hinit.symm.trans hfresh) (by decide)
  | added => exact Or.inr (Or.inr ⟨_, _, _, rfl⟩)
  | removed => exact Or.inr (Or.inr ⟨_, _, _, rfl⟩)
  | recovered => exact Or.inr (Or.inl rfl)

namespace Run

/-- Call `m` scheduled the change that call `n` applies: of this kind and payload,
by an owner of the epoch that still lasts, and the full delay before.  It waited
all along, so nothing cancelled it. -/
structure Timelocked (r : Run) (m n : ℕ) (changeId : B256) (changeKind : UInt8)
    (payload : Bytes) (approval : Approval) : Prop where
  earlier : m < n
  succeeds : r.Succeeds m
  call_eq : r.call m = .scheduleChange changeKind payload approval
  id_eq : changeId = r.host.keccak ((r.state m).approvedAction r.host Kind.scheduleChange
    0 0 (changeDataHash r.host changeKind payload) approval).encode
  owner : (r.state m).owner r.host approval.nullifier = true
  epoch : (r.state m).ownerEpoch = (r.state n).ownerEpoch
  waited : (r.now m).toNat + waitingTime (r.state n) changeKind ≤ (r.now n).toNat
  waiting : ∀ k, m < k → k ≤ n → ((r.state k).pending changeId).eta ≠ 0 ∧
    ((r.state k).pending changeId).changeKind = changeKind
  uncancelled : ∀ k, m < k → k < n → r.Succeeds k → (r.call k).target ≠ some changeId

/-- Call `n` applies a change that waited its full delay. -/
def AppliesTimelocked (r : Run) (n : ℕ) : Prop :=
  ∃ changeId changeKind payload m approval,
    r.call n = .applyChange changeId changeKind payload ∧
      r.Timelocked m n changeId changeKind payload approval

variable {r : Run}

theorem waitingTime_eq_of_le {i j : ℕ} (hij : i ≤ j)
    (hinit : (r.state i).initialized = true) (changeKind : UInt8) :
    waitingTime (r.state j) changeKind = waitingTime (r.state i) changeKind := by
  have hsettings := r.settings_eq_of_le hij hinit
  have hchange : (r.state j).changeDelay = (r.state i).changeDelay :=
    congrArg Settings.changeDelay hsettings
  have hrecovery : (r.state j).recoveryDelay = (r.state i).recoveryDelay :=
    congrArg Settings.recoveryDelay hsettings
  rw [waitingTime, waitingTime, hchange, hrecovery]

/-- Every applied change was scheduled, and waited its full delay. -/
theorem timelocked_of_apply (hclock : r.ClockFits) (hinj : r.CollisionFree) {n : ℕ}
    {changeId : B256} {changeKind : UInt8} {payload : Bytes} (hsucceeds : r.Succeeds n)
    (hcall : r.call n = .applyChange changeId changeKind payload) :
    ∃ m approval, r.Timelocked m n changeId changeKind payload approval := by
  have hstep := hsucceeds.step
  rw [hcall] at hstep
  obtain ⟨c, happlies⟩ := hstep.applies
  obtain ⟨-, rfl, rfl⟩ := Call.applyChange.inj happlies.call_eq
  have hpreimage : c.kind :: c.payload ∈ r.hashed :=
    ⟨n, hsucceeds, by rw [hcall]; exact List.mem_singleton_self _⟩
  have hne := ne_zero_of_eta happlies.waiting
  obtain ⟨m, c', approval, -, hmn, hscheduled, hschedules, hid, hrecord, hafter⟩ :=
    exists_schedule (Nat.zero_le n) (Ne.symm hne) hne
  have hencodes := happlies.encodes
  have hepoch := happlies.epoch
  have hready := happlies.ready
  rw [hrecord] at hencodes hepoch hready
  have hkind : c'.kind = c.kind := hencodes.kind
  have hpayload : c'.kind :: c'.payload = c.kind :: c.payload :=
    hinj (preimage_mem_hashed hscheduled hschedules.call_eq) hpreimage hencodes.hash
  obtain ⟨-, hsame⟩ := List.cons.inj hpayload
  have hinit := hschedules.authorized.initialized
  have hwaiting : ∀ k, m < k → k ≤ n → ((r.state k).pending changeId).eta ≠ 0 ∧
      ((r.state k).pending changeId).changeKind = c.kind := by
    intro k hmk hkn
    rw [hafter k hmk hkn]
    exact ⟨happlies.waiting, happlies.encodes.kind⟩
  refine ⟨m, approval, hmn, hscheduled, ?_, ?_, hschedules.authorized.owner, hepoch, ?_,
    hwaiting, ?_⟩
  · rw [hschedules.call_eq, hsame, hkind]
  · rw [hid, scheduledId, Change.hash, hsame, hkind]
  · rw [waitingTime_eq_of_le hmn.le hinit, ← hkind, ← toNat_eta hclock hinit]
    exact UInt64.le_iff_toNat_le.mp hready
  · intro k hmk hkn hsucceeds htarget
    apply (hwaiting (k + 1) (Nat.lt_succ_of_lt hmk) hkn).1
    rw [hsucceeds.step.target_removed htarget]
    rfl

end Run

/-- A step of an initialized account that turns a protection down, or names
another guardian, applies a change that waited its full delay; so does one that
changes who owns the account, unless it is a recovery. -/
theorem Run.timelock (r : Run) (hclock : r.ClockFits) (hinj : r.CollisionFree) (n : ℕ)
    (hinit : (r.state n).initialized = true) :
    (Loosens (r.state n).safeguards (r.state (n + 1)).safeguards →
        r.AppliesTimelocked n) ∧
      ∀ nullifier, (r.state (n + 1)).owner r.host nullifier ≠
          (r.state n).owner r.host nullifier →
        r.call n = .executeRecovery ∨ r.AppliesTimelocked n := by
  have happlies : r.Succeeds n → ∀ changeId changeKind payload,
      r.call n = .applyChange changeId changeKind payload → r.AppliesTimelocked n := by
    intro hsucceeds changeId changeKind payload hcall
    obtain ⟨m, approval, htimelocked⟩ := timelocked_of_apply hclock hinj hsucceeds hcall
    exact ⟨_, _, _, m, approval, hcall, htimelocked⟩
  by_cases hsucceeds : r.Succeeds n
  · constructor
    · intro hloosens
      rcases hsucceeds.step.tightens_or_applies hinit with htightens | ⟨_, c, hchange⟩
      · exact absurd hloosens htightens.not_loosens
      · exact happlies hsucceeds _ _ _ hchange.call_eq
    · intro nullifier hchanged
      rcases hsucceeds.step.owner_eq_or hinit with hsame | hrecovery | ⟨_, _, _, hcall⟩
      · exact absurd (hsame nullifier) hchanged
      · exact Or.inl hrecovery
      · exact Or.inr (happlies hsucceeds _ _ _ hcall)
  · rw [(state_succ_of_not_succeeds hsucceeds).1]
    exact ⟨fun hloosens => absurd hloosens (Tightens.refl _).not_loosens,
      fun nullifier hchanged => absurd rfl hchanged⟩

/-- Call 3 names a guardian, which waited for both delays. -/
theorem timelock_sample : Sample.run.AppliesTimelocked 3 := by
  obtain ⟨-, -, -, hbefore, hafter⟩ := Sample.checked
  apply (Run.timelock Sample.run Sample.regular.clockFits Sample.regular.collisionFree 3
    (Sample.initialized (by decide))).1
  apply Loosens.guardian
  rw [safeguards, safeguards, hbefore, hafter]
  decide +kernel

end VeraKey
