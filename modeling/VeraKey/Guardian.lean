/-
The guardian's power is bounded: it can freeze, stop waiting changes other than
changes to itself, and start or withdraw a recovery.  It cannot stop its own
replacement.
-/
import VeraKey.Recovery

namespace VeraKey

open ByteCodec VeraKeyAccount SlotTable

/-- The guardian's entry points. -/
def Call.ByGuardian : Call → Prop
  | .guardianCancelChange .. | .guardianFreeze _ | .initiateRecovery ..
  | .guardianCancelRecovery _ => True
  | _ => False

/-- The state but for what the guardian can change. -/
def VeraKeyAccount.beyondGuardian (s : VeraKeyAccount) : VeraKeyAccount :=
  { s with
    frozen := false
    pendingIds := fun _ => 0
    pending := fun _ => 0
    recoveryNullifier := 0
    recoveryEta := 0 }

/-- Only what the guardian can change moved: the account may be frozen, and
changes other than changes to the guardian may have left the table. -/
structure GuardianMoves (s s' : VeraKeyAccount) : Prop where
  beyond : s'.beyondGuardian = s.beyondGuardian
  frozen : s.frozen = true → s'.frozen = true
  table : Table.Thinned (keptOnCancel true) s.table s'.table

theorem GuardianMoves.refl (s : VeraKeyAccount) : GuardianMoves s s :=
  ⟨rfl, id, Table.Thinned.refl _⟩

theorem GuardianMoves.trans {s₁ s₂ s₃ : VeraKeyAccount} (h : GuardianMoves s₁ s₂)
    (h' : GuardianMoves s₂ s₃) : GuardianMoves s₁ s₃ :=
  ⟨h'.beyond.trans h.beyond, h'.frozen ∘ h.frozen, h.table.trans h'.table⟩

variable {host : Host} {vm : Vm} {s s' : VeraKeyAccount} {call : Call}
  {transfers : List Transfer}

theorem Step.guardianMoves (h : Step host vm s call s' transfers)
    (hcons : s.table.Consistent) (hguardian : call.ByGuardian) :
    GuardianMoves s s' ∧ transfers = [] := by
  cases h with
  | guardianCancelChange _ _ hkind =>
      refine ⟨⟨rfl, id, ?_⟩, rfl⟩
      rw [table_withTable]
      exact hcons.thinned_remove (by simpa [keptOnCancel] using hkind)
  | guardianFreeze =>
      refine ⟨⟨rfl, fun _ => rfl, ?_⟩, rfl⟩
      rw [table_withTable]
      exact hcons.thinned_clear
  | initiateRecovery => exact ⟨⟨rfl, id, Table.Thinned.refl _⟩, rfl⟩
  | guardianCancelRecovery => exact ⟨⟨rfl, id, Table.Thinned.refl _⟩, rfl⟩
  | _ => exact absurd hguardian id

/-! ## A waiting change to the guardian -/

/-- The calls that take a waiting change to the guardian out of the table. -/
def Call.RemovesGuardianChange (changeId : B256) : Call → Prop
  | .applyChange id .. | .cancelChange id _ => id = changeId
  | .restrict changeKind .. => changeKind = Changes.freeze
  | .executeRecovery => True
  | _ => False

theorem Step.removesGuardianChange (h : Step host vm s call s' transfers)
    (hcons : s.table.Consistent) {changeId : B256}
    (hkind : (s.pending changeId).changeKind = Changes.setGuardian)
    (hremoved : s'.pending changeId = 0) : call.RemovesGuardianChange changeId := by
  have hne : s.pending changeId ≠ 0 := by
    intro hzero
    rw [hzero] at hkind
    exact absurd hkind (by decide)
  have hother : ∀ id, id ≠ changeId →
      (s.table.remove id).records changeId = s.pending changeId := by
    intro id hid
    rw [Table.remove_records, Function.update_of_ne hid.symm]
    rfl
  cases h with
  | applyChange =>
      by_contra hid
      exact hne ((hother _ hid).symm.trans hremoved)
  | cancelChange =>
      by_contra hid
      exact hne ((hother _ hid).symm.trans hremoved)
  | @guardianCancelChange id _ _ _ hveto =>
      have hid : id ≠ changeId := by
        rintro rfl
        exact hveto hkind
      exact absurd ((hother _ hid).symm.trans hremoved) hne
  | guardianFreeze =>
      rw [withTable_pending, hcons.clear_records, table_records,
        if_pos (by simp [keptOnCancel, hkind])] at hremoved
      exact absurd hremoved hne
  | restrictFreeze => rfl
  | executeRecovery => trivial
  | scheduleChange hschedulable hcaps hauth htrack =>
      obtain ⟨c, hschedules⟩ :=
        (Step.scheduleChange hschedulable hcaps hauth htrack).schedules
      rw [hschedules.pending_eq, Function.update_apply] at hremoved
      split at hremoved
      · exact absurd (congrArg PendingChange.changeKind hremoved) c.kind_ne_zero
      · exact absurd hremoved hne
  | restrict =>
      rw [← table_records, applied_table] at hremoved
      exact absurd hremoved hne
  | _ => exact absurd hremoved hne

namespace Run

variable {r : Run}

/-- Unless it is applied, cancelled by an owner or cleared by a freeze of the owner
or a recovery, a change to the guardian stays in the table. -/
theorem Regular.guardianChange_stays (h : r.Regular) {i j : ℕ} (hij : i ≤ j)
    {changeId : B256} (hkind : ((r.state i).pending changeId).changeKind =
      Changes.setGuardian)
    (hkept : ∀ k, i ≤ k → k < j → r.Succeeds k →
      ¬ (r.call k).RemovesGuardianChange changeId) :
    (r.state j).pending changeId = (r.state i).pending changeId := by
  induction j, hij using Nat.le_induction with
  | base => rfl
  | succ j hij ih =>
      have hsame := ih fun k hik hkj => hkept k hik (Nat.lt_succ_of_lt hkj)
      rw [← hsame] at hkind ⊢
      have hne : (r.state j).pending changeId ≠ 0 := by
        intro hzero
        rw [hzero] at hkind
        exact absurd hkind (by decide)
      refine (h.pending_succ hne).resolve_right fun hremoved => ?_
      have hj : r.Succeeds j := succeeds_of_ne fun hstays => hne (hstays ▸ hremoved)
      apply hkept j hij j.lt_succ_self hj
      exact hj.step.removesGuardianChange (h.pendingSound j).consistent hkind hremoved

end Run

/-- Any sequence of guardian calls only freezes the account, takes changes other
than changes to the guardian out of the table, moves the recovery fields, and
transfers nothing.  A change to the guardian leaves the table only when it is
applied, cancelled or frozen away by an owner, or a recovery is executed; until
then anybody can apply it from its eta on, and applying it ends a pending
recovery. -/
theorem Run.guardian_bounded (r : Run) (hregular : r.Regular) :
    (∀ i j, i ≤ j → (∀ k, i ≤ k → k < j → (r.call k).ByGuardian) →
      GuardianMoves (r.state i) (r.state j) ∧ ∀ k, i ≤ k → k < j → r.transfers k = []) ∧
    (∀ k changeId, r.Succeeds k →
      ((r.state k).pending changeId).changeKind = Changes.setGuardian →
      (r.state (k + 1)).pending changeId = 0 →
        (r.call k).RemovesGuardianChange changeId) ∧
    ∀ i j changeId payload, i ≤ j → r.Waits i changeId Changes.setGuardian payload →
      (∀ k, i ≤ k → k < j → r.Succeeds k →
        ¬ (r.call k).RemovesGuardianChange changeId) →
      ∀ vm : Vm, ((r.state i).pending changeId).eta ≤ vm.blockTimestamp →
        ∃ out, (r.state j).exec r.host vm
            (.applyChange changeId Changes.setGuardian payload) = .ok out ∧
          out.account.guardianCommitment.bytes = payload ∧ out.account.recoveryEta = 0 := by
  refine ⟨?_, ?_, ?_⟩
  · intro i j hij hguardian
    constructor
    · apply relates GuardianMoves GuardianMoves.refl
        (fun _ _ _ hab hbc => hab.trans hbc) hij
      intro n hin hnj hsucceeds
      exact (hsucceeds.step.guardianMoves (hregular.pendingSound n).consistent
        (hguardian n hin hnj)).1
    · intro k hik hkj
      by_cases hsucceeds : r.Succeeds k
      · exact (hsucceeds.step.guardianMoves (hregular.pendingSound k).consistent
          (hguardian k hik hkj)).2
      · exact (state_succ_of_not_succeeds hsucceeds).2
  · intro k changeId hsucceeds hkind hremoved
    exact hsucceeds.step.removesGuardianChange (hregular.pendingSound k).consistent hkind
      hremoved
  · intro i j changeId payload hij hwaits hkept vm hready
    obtain ⟨-, c, hkind, rfl⟩ := hwaits.exists_change
    obtain ⟨commitment, rfl⟩ := Change.kind_eq_setGuardian.mp hkind
    have hsame := hregular.guardianChange_stays hij hwaits.kind hkept
    have hinit : (r.state j).initialized = true := by
      obtain ⟨m, hmi, approval, hsucceeds, hcall⟩ := hwaits.scheduled
      have hstep := hsucceeds.step
      rw [hcall] at hstep
      obtain ⟨c, hschedules⟩ := hstep.schedules
      exact initialized_of_le (hmi.le.trans hij) hschedules.authorized.initialized
    have hne := ne_zero_of_eta hwaits.waiting
    obtain ⟨out, hout, haccount⟩ := exists_outcome_of_applicable
      (c := .setGuardian commitment) hinit (by rw [hsame]; exact hwaits.waiting)
      (by rw [hsame]; exact ⟨hwaits.kind, hwaits.hash⟩)
      ((hregular.pendingSound j).epoch changeId (by rw [hsame]; exact hne))
      (by rw [hsame]; exact hready) trivial
    refine ⟨out, hout, ?_, ?_⟩
    · rw [haccount]
      rfl
    · rw [haccount]
      rfl

/-- Calls 4 and 5, both by the guardian. -/
theorem guardian_bounded_sample :
    GuardianMoves (Sample.run.state 4) (Sample.run.state 6) := by
  refine ((Run.guardian_bounded Sample.run Sample.regular).1 4 6 (by decide) ?_).1
  intro k hk hk'
  interval_cases k
  · trivial
  · trivial

end VeraKey
