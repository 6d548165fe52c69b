/-
The recovery law: a recovery is executed only after the guardian initiated it
long enough before and nothing voided it since, and it leaves one owner, no
waiting change, and no way back for the owners before it.
-/
import VeraKey.Approval
import VeraKey.Freeze
import VeraKey.WaitingFits

namespace VeraKey

open ByteCodec VeraKeyAccount KeyedSet

variable {host : Host} {vm : Vm} {s s' : VeraKeyAccount} {call : Call}
  {transfers : List Transfer}

/-! ## Where a pending recovery comes from -/

namespace Run

variable {r : Run}

/-- A recovery that is pending where none was before was initiated in between. -/
theorem exists_initiates {i j : ℕ} (hij : i ≤ j) (hi : (r.state i).recoveryEta = 0)
    (hj : (r.state j).recoveryEta ≠ 0) :
    ∃ k, i ≤ k ∧ k < j ∧ r.Succeeds k ∧ (r.call k).Initiates := by
  obtain ⟨k, hik, hkj, hbefore, hafter⟩ := History.exists_last_rise
    (p := fun n => (r.state n).recoveryEta ≠ 0) hij (not_not.mpr hi) hj
  have hnext := hafter (k + 1) k.lt_succ_self hkj
  have hsucceeds : r.Succeeds k := succeeds_of_ne fun hsame =>
    hbefore (by rw [← hsame]; exact hnext)
  refine ⟨k, hik, hkj, hsucceeds, ?_⟩
  have hmove := hsucceeds.step.recoveryMove
  cases hcall : r.call k with
  | initiateRecovery => exact trivial
  | _ =>
      rw [hcall] at hmove
      cases hmove with
      | same _ heta => exact absurd (heta ▸ hnext) hbefore
      | voided _ heta => exact absurd heta hnext

/-- A pending recovery comes from the last initiation, and nothing voided it
since. -/
theorem exists_initiation {x : ℕ} (hx : (r.state x).recoveryEta ≠ 0) :
    ∃ i nullifier salt, i < x ∧ r.Succeeds i ∧
      r.call i = .initiateRecovery nullifier salt ∧
      (r.state i).initialized = true ∧
      (r.state i).OpensGuardian r.host (r.vm i) salt ∧
      (r.state x).recoveryEta = r.now i + (r.state i).recoveryDelay ∧
      (r.state x).recoveryNullifier = nullifier ∧
      ∀ k, i < k → k < x → r.Succeeds k →
        ¬ (r.call k).Initiates ∧ ¬ (r.call k).VoidsRecovery := by
  obtain ⟨first, -, hfirst, hevent⟩ := exists_initiates (Nat.zero_le x) rfl hx
  have hsome : ∃ k, k < x ∧ (r.Succeeds k ∧ (r.call k).Initiates) :=
    ⟨first, hfirst, hevent⟩
  obtain ⟨i, hix, ⟨hsucceeds, hinitiates⟩, hlast⟩ := History.exists_last_event hsome
  have hquiet : ∀ k, i < k → k < x → r.Succeeds k →
      ¬ (r.call k).Initiates ∧ ¬ (r.call k).VoidsRecovery := by
    intro k hik hkx hk
    refine ⟨fun hinitiates => hlast k hik hkx ⟨hk, hinitiates⟩, fun hvoids => ?_⟩
    obtain ⟨j, hkj, hjx, hevent⟩ :=
      exists_initiates hkx (hk.step.recoveryEta_of_voids hvoids) hx
    exact hlast j (by omega) hjx hevent
  have hsame : ((r.state x).recoveryEta, (r.state x).recoveryNullifier) =
      ((r.state (i + 1)).recoveryEta, (r.state (i + 1)).recoveryNullifier) := by
    apply History.eq_of_unchanged
      (f := fun n => ((r.state n).recoveryEta, (r.state n).recoveryNullifier)) hix
    intro k hik hkx
    by_cases hk : r.Succeeds k
    · obtain ⟨hnot, hvoids⟩ := hquiet k hik hkx hk
      have hmove := hk.step.recoveryMove
      generalize r.call k = call at hmove hnot hvoids
      cases hmove with
      | same _ heta hnullifier => rw [heta, hnullifier]
      | initiated => exact absurd trivial hnot
      | voided hvoids' => exact absurd hvoids' hvoids
    · rw [(state_succ_of_not_succeeds hk).1]
  obtain ⟨heta, hnullifier⟩ := Prod.mk.inj hsame
  have hmove := hsucceeds.step.recoveryMove
  cases hcall : r.call i with
  | initiateRecovery nullifier salt =>
      rw [hcall] at hmove
      cases hmove with
      | initiated _ hinit hopens heta' hnullifier' =>
          exact ⟨i, nullifier, salt, hix, hsucceeds, hcall, hinit, hopens,
            heta.trans heta', hnullifier.trans hnullifier', hquiet⟩
      | same hnot => exact absurd trivial hnot
      | voided hvoids => exact absurd hvoids id
  | _ =>
      rw [hcall] at hinitiates
      exact absurd hinitiates id

end Run

/-! ## The owners after a recovery -/

variable {members : Finset B256}

/-- A recovery leaves the owner it names, and no other. -/
theorem Step.owner_of_executeRecovery (h : Step host vm s .executeRecovery s' transfers)
    (hsound : OwnersSound host s members)
    (hkey : OwnKey host (s.ownerEpoch + 1) s.recoveryNullifier)
    (hepoch : s.ownerEpoch.toNat < 2 ^ 256 - 1) (nullifier : B256) :
    s'.owner host nullifier = true ↔ nullifier = s.recoveryNullifier := by
  have hsucc := OwnersSound.toNat_succ_epoch hepoch
  have hnone : ∀ m, member s.owners (ownerKey host) (s.ownerEpoch + 1) m = false :=
    fun m => hsound.noneAfter _ m (by omega)
  have hlists := Lists.singleton hnone hkey
  cases h.ownersMove with
  | same _ _ hsame =>
      have hnext : s'.ownerEpoch = s.ownerEpoch + 1 := by
        cases h
        rfl
      rw [hsame] at hnext
      rw [← hnext] at hsucc
      omega
  | recovered _ howners _ hnext =>
      rw [owner, howners, hnext]
      exact (hlists nullifier).symm.trans Finset.mem_singleton

/-- Only an applied addition or a recovery makes somebody an owner. -/
theorem Step.owner_rises (h : Step host vm s call s' transfers)
    (hinit : s.initialized = true) (hsound : OwnersSound host s members)
    (hkeys : ∀ entry ∈ call.entries s, OwnKey host entry.1 entry.2)
    (hepoch : s.ownerEpoch.toNat < 2 ^ 256 - 1) {nullifier : B256}
    (hbefore : ¬ s.owner host nullifier = true)
    (hafter : s'.owner host nullifier = true) :
    (∃ changeId, call = .applyChange changeId Changes.addOwner nullifier.bytes) ∨
      call = .executeRecovery ∧ s.recoveryNullifier = nullifier := by
  cases h.ownersMove with
  | same howners _ hsame =>
      rw [owner, howners, hsame] at hafter
      exact absurd hafter hbefore
  | initialized hfresh => exact absurd (hinit.symm.trans hfresh) (by decide)
  | @added changeId added _ _ howners _ hsame =>
      left
      refine ⟨changeId, ?_⟩
      by_contra hother
      have howner := owner_of_update (hkeys (_, _) ⟨Or.inl rfl, rfl, rfl⟩) howners hsame
      have hne : nullifier ≠ added.value := by
        rintro rfl
        exact hother rfl
      rw [howner.2 nullifier hne] at hafter
      exact hbefore hafter
  | @removed _ removed _ _ _ howners _ hsame =>
      have howner := owner_of_update (hkeys (_, _) ⟨Or.inr rfl, rfl, rfl⟩) howners hsame
      by_cases heq : nullifier = removed.value
      · rw [heq, howner.1] at hafter
        exact absurd hafter Bool.false_ne_true
      · rw [howner.2 nullifier heq] at hafter
        exact absurd hafter hbefore
  | recovered =>
      right
      have hkey := hkeys (s.ownerEpoch + 1, s.recoveryNullifier) rfl
      exact ⟨rfl, ((h.owner_of_executeRecovery hsound hkey hepoch nullifier).mp
        hafter).symm⟩

namespace Run

variable {r : Run}

/-- Every change applied after a recovery was scheduled after it. -/
theorem Regular.scheduled_after (h : r.Regular) {x k : ℕ} (hx : r.Succeeds x)
    (hcall : r.call x = .executeRecovery) (hxk : x < k) (hk : r.Succeeds k)
    {changeId : B256} {changeKind : UInt8} {payload : Bytes}
    (hchange : r.call k = .applyChange changeId changeKind payload) :
    ∃ m approval, x < m ∧ r.Timelocked m k changeId changeKind payload approval := by
  obtain ⟨m, approval, htimelocked⟩ :=
    timelocked_of_apply h.clockFits h.collisionFree hk hchange
  refine ⟨m, approval, ?_, htimelocked⟩
  by_contra hmx
  rcases Nat.lt_or_ge m x with hlt | hge
  · have hstep := hx.step
    rw [hcall] at hstep
    apply (htimelocked.waiting (x + 1) (by omega) hxk).1
    rw [hstep.pending_of_executeRecovery (h.pendingSound x).consistent changeId]
    rfl
  · obtain rfl : m = x := by omega
    exact Call.noConfusion (htimelocked.call_eq.symm.trans hcall)

/-- Whoever is no owner right after a recovery and authorizes a call later was
made an owner in between. -/
theorem Regular.readmitted (h : r.Regular) (hnonce : r.NonceFits) (hepoch : r.EpochFits)
    (hkeys : r.KeysInjective) {x k : ℕ} (hstarted : (r.state x).initialized = true)
    (hx : r.Succeeds x) (hcall : r.call x = .executeRecovery) (hxk : x < k) {former : B256}
    (hbefore : ¬ (r.state (x + 1)).owner r.host former = true)
    (hafter : (r.state k).owner r.host former = true) :
    ∃ a, x < a ∧ a < k ∧ r.Succeeds a ∧
      ((∃ m changeId approval, x < m ∧
          r.call a = .applyChange changeId Changes.addOwner former.bytes ∧
          r.Timelocked m a changeId Changes.addOwner former.bytes approval) ∨
        r.call a = .executeRecovery ∧ (r.state a).recoveryNullifier = former) := by
  obtain ⟨a, hxa, hak, hnot, howner⟩ := History.exists_last_rise
    (p := fun n => (r.state n).owner r.host former = true) hxk hbefore hafter
  have hnext := howner (a + 1) a.lt_succ_self hak
  have ha : r.Succeeds a := succeeds_of_ne fun hsame =>
    hnot (by rw [← hsame]; exact hnext)
  have hinit := initialized_of_le (x.le_succ.trans hxa) hstarted
  obtain ⟨members, hsound⟩ := exists_ownersSound hnonce hepoch hkeys hinit
  refine ⟨a, hxa, hak, ha, ?_⟩
  rcases ha.step.owner_rises hinit hsound (hkeys a ha) (hepoch a) hnot hnext with
    ⟨changeId, hadd⟩ | hrecovery
  · obtain ⟨m, approval, hxm, htimelocked⟩ := h.scheduled_after hx hcall hxa ha hadd
    exact Or.inl ⟨m, changeId, approval, hxm, hadd, htimelocked⟩
  · exact Or.inr hrecovery

end Run

/-- A recovery executed by call `x` was initiated, by a caller that opens the
guardian commitment and at least the recovery delay before, and nothing initiated
or voided one in between.  Right after it the owner is the one it names and no
change waits.  Every change applied later was scheduled after it, and whoever else
authorizes a later call was made an owner after it. -/
theorem Run.recovery_law (r : Run) (hregular : r.Regular) (hnonce : r.NonceFits)
    (hepoch : r.EpochFits) (hkeys : r.KeysInjective) (x : ℕ) (hsucceeds : r.Succeeds x)
    (hcall : r.call x = .executeRecovery) :
    ∃ i nullifier salt, i < x ∧ r.Succeeds i ∧
      r.call i = .initiateRecovery nullifier salt ∧
      (r.state i).OpensGuardian r.host (r.vm i) salt ∧
      (r.now i).toNat + (r.state i).recoveryDelay.toNat ≤ (r.now x).toNat ∧
      (∀ k, i < k → k < x → r.Succeeds k →
        ¬ (r.call k).Initiates ∧ ¬ (r.call k).VoidsRecovery) ∧
      (∀ other, (r.state (x + 1)).owner r.host other = true ↔ other = nullifier) ∧
      (r.state (x + 1)).pendingChangeIds = [] ∧
      (∀ k changeId changeKind payload, x < k → r.Succeeds k →
        r.call k = .applyChange changeId changeKind payload →
          ∃ m approval, x < m ∧
            r.Timelocked m k changeId changeKind payload approval) ∧
      ∀ k approval, x < k → r.Succeeds k → (r.call k).approval = some approval →
        approval.nullifier ≠ nullifier →
          ∃ a, x < a ∧ a < k ∧ r.Succeeds a ∧
            ((∃ m changeId approval', x < m ∧
                r.call a = .applyChange changeId Changes.addOwner approval.nullifier.bytes ∧
                r.Timelocked m a changeId Changes.addOwner approval.nullifier.bytes
                  approval') ∨
              r.call a = .executeRecovery ∧
                (r.state a).recoveryNullifier = approval.nullifier) := by
  have hstep := hsucceeds.step
  rw [hcall] at hstep
  obtain ⟨heta, hready⟩ := hstep.recovery_ready
  obtain ⟨i, nullifier, salt, hix, hi, hinitiate, hinit, hopens, heta', hnullifier, hquiet⟩ :=
    exists_initiation heta
  have hinitx := initialized_of_le hix.le hinit
  obtain ⟨members, hsound⟩ := exists_ownersSound hnonce hepoch hkeys hinitx
  have howner : ∀ other, (r.state (x + 1)).owner r.host other = true ↔
      other = nullifier := by
    rw [← hnullifier]
    exact hstep.owner_of_executeRecovery hsound
      (hkeys x hsucceeds (_, _) (by rw [hcall]; rfl)) (hepoch x)
  have hempty := hstep.pending_of_executeRecovery (hregular.pendingSound x).consistent
  refine ⟨i, nullifier, salt, hix, hi, hinitiate, hopens, ?_, hquiet, howner, ?_, ?_, ?_⟩
  · rw [← toNat_recoveryEta hregular.clockFits hinit, ← heta']
    exact UInt64.le_iff_toNat_le.mp hready
  · apply List.eq_nil_iff_forall_not_mem.mpr
    intro id hid
    apply ((hregular.pendingSound (x + 1)).tableInvariant.listed_iff id).mp hid
    rw [hempty id]
    rfl
  · intro k changeId changeKind payload hxk hk hchange
    exact hregular.scheduled_after hsucceeds hcall hxk hk hchange
  · intro k approval hxk hk happroval hne
    exact hregular.readmitted hnonce hepoch hkeys hinitx hsucceeds hcall hxk
      (fun hmember => hne ((howner _).mp hmember)) (hk.step.owner_of_approval happroval)

/-- Call 6 recovers the account for the owner the guardian named. -/
theorem recovery_law_sample : ∃ nullifier : B256, ∀ other,
    (Sample.run.state (6 + 1)).owner Sample.host other = true ↔ other = nullifier := by
  obtain ⟨i, nullifier, salt, -, -, -, -, -, -, howner, -⟩ :=
    Run.recovery_law Sample.run Sample.regular Sample.nonceFits Sample.epochFits
      Sample.keysInjective 6 (Sample.succeeds (by decide)) rfl
  exact ⟨nullifier, howner⟩

end VeraKey
