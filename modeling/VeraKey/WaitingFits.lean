/-
Every waiting change can be applied: what was checked when it was scheduled
still holds when its time has come, whatever happened to the owners and to the
other changes in between.
-/
import VeraKey.OwnerSet

namespace VeraKey

open ByteCodec Guard VeraKeyAccount KeyedSet

@[simp]
theorem Change.kind_eq_addOwner {c : Change} :
    c.kind = Changes.addOwner ↔ ∃ nullifier, c = .addOwner nullifier := by
  cases c <;> simp +decide [Change.kind]

/-- The record adds or removes this owner, and its preimage was hashed. -/
structure Names (host : Host) (used : Set Bytes) (record : PendingChange)
    (changeKind : UInt8) (nullifier : B256) : Prop where
  kind : record.changeKind = changeKind
  hash : record.payloadHash = changeDataHash host changeKind nullifier.bytes
  used : changeKind :: nullifier.bytes ∈ used

/-- Waiting additions name no owner, waiting removals name owners, and fewer of
these wait than there are owners. -/
structure WaitingFits (host : Host) (used : Set Bytes) (s : VeraKeyAccount) : Prop where
  addition : ∀ id nullifier, Names host used (s.pending id) Changes.addOwner nullifier →
    s.owner host nullifier = false
  removal : ∀ id nullifier, Names host used (s.pending id) Changes.removeOwner nullifier →
    s.owner host nullifier = true
  removals : s.initialized = true → (idsWith IsRemoval s).ncard < s.ownerCount.toNat

variable {host : Host} {used : Set Bytes} {vm : Vm} {s s' : VeraKeyAccount} {call : Call}
  {transfers : List Transfer} {record : PendingChange} {changeKind : UInt8}
  {nullifier other : B256}

theorem not_isRemoval_zero : ¬ IsRemoval 0 := by decide

theorem Names.ne_zero (h : Names host used record changeKind nullifier)
    (hkind : changeKind ≠ 0) : record ≠ 0 := by
  rintro rfl
  exact hkind h.kind.symm

/-- A scheduled change of an owner names exactly that owner. -/
theorem Names.of_scheduledRecord (hinj : Set.InjOn host.keccak used) {c : Change}
    (hused : c.kind :: c.payload ∈ used)
    (h : Names host used (s.scheduledRecord host vm c) changeKind nullifier) :
    c.kind = changeKind ∧ c.payload = nullifier.bytes := by
  have hpreimage := hinj hused h.used h.hash
  exact List.cons.inj hpreimage

theorem waitingFits_fresh : WaitingFits host used .fresh where
  addition _ _ h := absurd rfl (h.ne_zero (by decide))
  removal _ _ h := absurd rfl (h.ne_zero (by decide))
  removals hinit := absurd hinit Bool.false_ne_true

/-! ## Counting removals -/

/-- The loop of `check_schedule` counts the removals that wait. -/
theorem pendingRemovals_eq (hcons : s.table.Consistent) :
    s.pendingRemovals = (idsWith IsRemoval s).ncard := by
  have hcard := hcons.card_slots not_isRemoval_zero
  have hfree : ∀ index, s.pendingIds index = 0 →
      ¬ IsRemoval (s.pending (s.pendingIds index)) := by
    intro index hzero
    rw [hzero, show s.pending 0 = 0 from hcons.records_zero]
    exact not_isRemoval_zero
  rw [idsWith, ← table_records, ← hcard, pendingRemovals, List.countP_eq_length_filter]
  have hsame : ∀ index ∈ List.finRange maxPending,
      decide (s.pendingIds index ≠ 0 ∧ IsRemoval (s.pending (s.pendingIds index))) =
        decide (IsRemoval (s.pending (s.pendingIds index))) := by
    intro index _
    rw [decide_eq_decide, and_iff_right_iff_imp]
    exact fun hremoval hzero => hfree index hzero hremoval
  rw [List.filter_congr hsame]
  rfl

/-! ## What a call does to the owners -/

theorem owner_of_update {value : Bool} (hkey : OwnKey host s.ownerEpoch nullifier)
    (howners : s'.owners = Function.update s.owners
      (ownerKey host s.ownerEpoch nullifier) value)
    (hepoch : s'.ownerEpoch = s.ownerEpoch) :
    s'.owner host nullifier = value ∧
      ∀ other, other ≠ nullifier → s'.owner host other = s.owner host other := by
  constructor
  · rw [owner, howners, hepoch, Function.update_self]
  · intro other hne
    rw [owner, owner, howners, hepoch, Function.update_of_ne]
    exact fun hsame => hne (hkey _ _ hsame).2

/-- Removing waiting changes leaves the others fitting the same owners. -/
theorem WaitingFits.thins (h : WaitingFits host used s) (hthins : Thins s s')
    (howner : ∀ nullifier, s'.owner host nullifier = s.owner host nullifier)
    (hcount : s'.ownerCount = s.ownerCount) (hinit : s.initialized = true) :
    WaitingFits host used s' := by
  have hkept : ∀ id changeKind nullifier, changeKind ≠ 0 →
      Names host used (s'.pending id) changeKind nullifier →
        Names host used (s.pending id) changeKind nullifier := by
    intro id changeKind nullifier hkind hnames
    rwa [(hthins.records id).resolve_right (hnames.ne_zero hkind)] at hnames
  constructor
  · intro id nullifier hnames
    rw [howner]
    exact h.addition id nullifier (hkept id _ _ (by decide) hnames)
  · intro id nullifier hnames
    rw [howner]
    exact h.removal id nullifier (hkept id _ _ (by decide) hnames)
  · intro _
    rw [hcount]
    exact (hthins.ncard_le not_isRemoval_zero).trans_lt (h.removals hinit)

/-- A scheduled change was checked against the owners. -/
theorem WaitingFits.schedules (h : WaitingFits host used s)
    (hsound : PendingSound host used s) {c : Change} {approval : Approval}
    (hschedules : Schedules host vm s s' call c approval)
    (hinj : Set.InjOn host.keccak used) (hused : c.kind :: c.payload ∈ used)
    (howner : ∀ nullifier, s'.owner host nullifier = s.owner host nullifier)
    (hcount : s'.ownerCount = s.ownerCount) : WaitingFits host used s' := by
  have happlicable := hschedules.schedulable.applicable
  have hcases : ∀ id, (s'.pending id = s.scheduledRecord host vm c) ∨
      s'.pending id = s.pending id := by
    intro id
    rw [hschedules.pending_eq, Function.update_apply]
    split
    · exact Or.inl rfl
    · exact Or.inr rfl
  constructor
  · intro id nullifier hnames
    rw [howner]
    rcases hcases id with hnew | hold
    · rw [hnew] at hnames
      obtain ⟨hkind, hpayload⟩ := hnames.of_scheduledRecord hinj hused
      obtain ⟨added, rfl⟩ := Change.kind_eq_addOwner.mp hkind
      rw [← FixedBytes.ext hpayload]
      exact happlicable
    · rw [hold] at hnames
      exact h.addition id nullifier hnames
  · intro id nullifier hnames
    rw [howner]
    rcases hcases id with hnew | hold
    · rw [hnew] at hnames
      obtain ⟨hkind, hpayload⟩ := hnames.of_scheduledRecord hinj hused
      obtain ⟨removed, rfl⟩ := Change.kind_eq_removeOwner.mp hkind
      rw [← FixedBytes.ext hpayload]
      exact happlicable.1
    · rw [hold] at hnames
      exact h.removal id nullifier hnames
  · intro _
    rw [hcount]
    by_cases hremoval : ∃ removed, c = .removeOwner removed
    · obtain ⟨removed, rfl⟩ := hremoval
      have hlt := hschedules.schedulable.leaves_owner removed rfl
      rw [pendingRemovals_eq hsound.consistent] at hlt
      have hle := hschedules.ncard_le (p := IsRemoval)
      omega
    · have hnot : ¬ IsRemoval (s.scheduledRecord host vm c) := fun hkind =>
        hremoval (Change.kind_eq_removeOwner.mp hkind)
      exact (hschedules.ncard_le_of_not hnot).trans_lt
        (h.removals hschedules.authorized.initialized)

/-- A change that still waits after another was applied is not that change. -/
theorem Applies.names (hsound : PendingSound host used s) {changeId : B256} {c : Change}
    (happlies : Applies host vm s s' call changeId c) (hkind : changeKind ≠ 0) {id : B256}
    (hnames : Names host used (s'.pending id) changeKind nullifier) :
    Names host used (s.pending id) changeKind nullifier ∧
      ¬ (c.kind = changeKind ∧ c.payload = nullifier.bytes) := by
  rw [happlies.pending_eq] at hnames
  have hne : id ≠ changeId := by
    rintro rfl
    rw [Function.update_self] at hnames
    exact hnames.ne_zero hkind rfl
  rw [Function.update_of_ne hne] at hnames
  refine ⟨hnames, ?_⟩
  rintro ⟨hsame, hpayload⟩
  apply hne
  apply hsound.distinct id changeId (hnames.ne_zero hkind)
    (ne_zero_of_eta happlies.waiting)
  rw [hnames.hash, happlies.encodes.hash, Change.hash, hsame, hpayload]

/-- Adding an owner leaves the other waiting changes fitting. -/
theorem WaitingFits.added (h : WaitingFits host used s) (hsound : PendingSound host used s)
    {changeId : B256} {c : Change} (happlies : Applies host vm s s' call changeId c)
    (hc : c.kind = Changes.addOwner ∧ c.payload = nullifier.bytes)
    (howner : s'.owner host nullifier = true ∧
      ∀ other, other ≠ nullifier → s'.owner host other = s.owner host other)
    (hcount : s'.ownerCount.toNat = s.ownerCount.toNat + 1) :
    WaitingFits host used s' := by
  constructor
  · intro id other hnames
    obtain ⟨hnames, hdistinct⟩ := happlies.names hsound (by decide) hnames
    have hne : other ≠ nullifier := by
      rintro rfl
      exact hdistinct hc
    rw [howner.2 other hne]
    exact h.addition id other hnames
  · intro id other hnames
    obtain ⟨hnames, -⟩ := happlies.names hsound (by decide) hnames
    by_cases heq : other = nullifier
    · rw [heq]
      exact howner.1
    · rw [howner.2 other heq]
      exact h.removal id other hnames
  · intro _
    have hle := happlies.thins.ncard_le not_isRemoval_zero
    have hlt := h.removals happlies.initialized
    omega

/-- Removing an owner leaves the other waiting changes fitting. -/
theorem WaitingFits.removed (h : WaitingFits host used s)
    (hsound : PendingSound host used s) {changeId : B256} {c : Change}
    (happlies : Applies host vm s s' call changeId c)
    (hc : c.kind = Changes.removeOwner ∧ c.payload = nullifier.bytes)
    (howner : s'.owner host nullifier = false ∧
      ∀ other, other ≠ nullifier → s'.owner host other = s.owner host other)
    (hcount : s'.ownerCount.toNat + 1 = s.ownerCount.toNat) : WaitingFits host used s' := by
  constructor
  · intro id other hnames
    obtain ⟨hnames, -⟩ := happlies.names hsound (by decide) hnames
    by_cases heq : other = nullifier
    · rw [heq]
      exact howner.1
    · rw [howner.2 other heq]
      exact h.addition id other hnames
  · intro id other hnames
    obtain ⟨hnames, hdistinct⟩ := happlies.names hsound (by decide) hnames
    have hne : other ≠ nullifier := by
      rintro rfl
      exact hdistinct hc
    rw [howner.2 other hne]
    exact h.removal id other hnames
  · intro _
    have hremoval : IsRemoval (s.pending changeId) := happlies.encodes.kind.trans hc.1
    have hle := happlies.ncard_succ_le not_isRemoval_zero hremoval
    have hlt := h.removals happlies.initialized
    omega

/-- Where nothing waits, everything that waits fits. -/
theorem waitingFits_of_empty (hempty : ∀ id, s'.pending id = 0)
    (hcount : 0 < s'.ownerCount.toNat) : WaitingFits host used s' := by
  constructor
  · intro id nullifier hnames
    exact absurd (hempty id) (hnames.ne_zero (by decide))
  · intro id nullifier hnames
    exact absurd (hempty id) (hnames.ne_zero (by decide))
  · intro _
    have hnone : idsWith IsRemoval s' = ∅ := by
      apply Set.eq_empty_iff_forall_notMem.mpr
      intro id hid
      rw [idsWith, Set.mem_ofPred_eq, hempty id] at hid
      exact not_isRemoval_zero hid
    rw [hnone, Set.ncard_empty]
    exact hcount

/-- One call keeps every waiting change fitting. -/
theorem Step.waitingFits (h : Step host vm s call s' transfers)
    (hfits : WaitingFits host used s) (hsound : PendingSound host used s)
    (hinv : OwnersInvariant host s) (hstart : s = .fresh ∨ s.initialized = true)
    (hinj : Set.InjOn host.keccak used)
    (hused : ∀ preimage ∈ call.hashed host s, preimage ∈ used)
    (hkeys : ∀ entry ∈ call.entries s, OwnKey host entry.1 entry.2)
    (hnonce : s.nonce.toNat < 2 ^ 64 - 1) : WaitingFits host used s' := by
  rcases hstart with rfl | hinit
  · obtain ⟨c, rfl⟩ := h.of_fresh
    cases h
    exact waitingFits_of_empty (fun _ => rfl) (by simp)
  · cases h.ownersMove with
    | same howners hcount hepoch =>
        have howner : ∀ nullifier, s'.owner host nullifier = s.owner host nullifier := by
          intro nullifier
          rw [owner, owner, howners, hepoch]
        rcases h.schedules_or_thins with ⟨c, approval, hschedules⟩ | hthins
        · have hpreimage : c.kind :: c.payload ∈ used := by
            apply hused
            rw [hschedules.call_eq]
            exact List.mem_cons_self
          exact hfits.schedules hsound hschedules hinj hpreimage howner hcount
        · exact hfits.thins hthins howner hcount hinit
    | initialized hfresh => exact absurd (hinit.symm.trans hfresh) (by decide)
    | @added _ nullifier _ habsent howners hcount hepoch =>
        obtain ⟨c, happlies⟩ := h.applies
        obtain ⟨-, hkind, hpayload⟩ := Call.applyChange.inj happlies.call_eq
        have howner := owner_of_update (hkeys (_, _) ⟨Or.inl rfl, rfl, rfl⟩) howners hepoch
        have hsucc : s'.ownerCount.toNat = s.ownerCount.toNat + 1 := by
          rw [hcount, happlies.toNat_ownerCount_succ hinv.withinNonce hnonce]
        exact hfits.added hsound happlies ⟨hkind.symm, hpayload.symm⟩ howner hsucc
    | @removed _ nullifier _ hmember hlast howners hcount hepoch =>
        obtain ⟨c, happlies⟩ := h.applies
        obtain ⟨-, hkind, hpayload⟩ := Call.applyChange.inj happlies.call_eq
        have howner := owner_of_update (hkeys (_, _) ⟨Or.inr rfl, rfl, rfl⟩) howners hepoch
        have hpred : s'.ownerCount.toNat + 1 = s.ownerCount.toNat := by
          rw [hcount, toNat_ownerCount_pred hlast]
          omega
        exact hfits.removed hsound happlies ⟨hkind.symm, hpayload.symm⟩ howner hpred
    | recovered _ _ hcount =>
        apply waitingFits_of_empty (h.pending_of_executeRecovery hsound.consistent)
        rw [hcount]
        decide

/-! ## Applying -/

/-- A waiting change whose time has come is applied if it fits the owners. -/
theorem exists_outcome_of_applicable {changeId : B256} {c : Change}
    (hinit : s.initialized = true) (hwaiting : (s.pending changeId).eta ≠ 0)
    (hencodes : (s.pending changeId).Encodes host c)
    (hepoch : (s.pending changeId).ownerEpoch = s.ownerEpoch)
    (hready : (s.pending changeId).eta ≤ vm.blockTimestamp)
    (happlicable : s.Applicable host c) :
    ∃ out, s.exec host vm (.applyChange changeId c.kind c.payload) = .ok out ∧
      out.account = (s.applied host c).withTable (s.table.remove changeId) := by
  have happly : (s.clearPending changeId).apply host c.kind c.payload =
      .ok ((s.clearPending changeId).applied host c,
        (s.clearPending changeId).appliedLogs c) := by
    apply (apply_payload_eq_ok c).mpr
    rw [clearPending_eq_remove]
    exact ⟨(applicable_withTable _).mpr happlicable, rfl⟩
  refine ⟨⟨(s.clearPending changeId).applied host c, [],
    (s.clearPending changeId).appliedLogs c ++ [.changeApplied changeId c.kind], none⟩,
    ?_, ?_⟩
  · change s.applyChange host vm changeId c.kind c.payload = _
    unfold applyChange
    rw [rejectIf_bind_of_not (not_not.mpr hinit)]
    dsimp only
    rw [rejectIf_bind_of_not, rejectIf_bind_of_not (UInt64.not_lt.mpr hready), happly]
    · rfl
    · rintro (hzero | hkind | hhash | hother)
      · exact hwaiting hzero
      · exact hkind hencodes.kind
      · exact hhash hencodes.hash
      · exact hother hepoch
  · rw [clearPending_eq_remove]
    exact applied_withTable _ c

namespace Run

variable {r : Run}

theorem waitingFits (h : r.Regular) (hnonce : r.NonceFits) (hepoch : r.EpochFits)
    (hkeys : r.KeysInjective) (n : ℕ) : WaitingFits r.host r.hashed (r.state n) := by
  induction n with
  | zero => exact waitingFits_fresh
  | succ n ih =>
      by_cases hsucceeds : r.Succeeds n
      · exact hsucceeds.step.waitingFits ih (h.pendingSound n)
          (ownersInvariant hnonce hepoch hkeys n) (r.fresh_or_initialized n)
          h.collisionFree (fun preimage hmem => ⟨n, hsucceeds, hmem⟩)
          (hkeys n hsucceeds) (hnonce n)
      · rw [(state_succ_of_not_succeeds hsucceeds).1]
        exact ih

/-- The change of this kind and payload waits under `id`, as it was scheduled. -/
structure Waits (r : Run) (n : ℕ) (id : B256) (changeKind : UInt8) (payload : Bytes) :
    Prop where
  waiting : ((r.state n).pending id).eta ≠ 0
  kind : ((r.state n).pending id).changeKind = changeKind
  hash : ((r.state n).pending id).payloadHash = changeDataHash r.host changeKind payload
  scheduled : ∃ m < n, ∃ approval, r.Succeeds m ∧
    r.call m = .scheduleChange changeKind payload approval

/-- Whatever waits was scheduled. -/
theorem exists_waits {n : ℕ} {id : B256} (hwaiting : ((r.state n).pending id).eta ≠ 0) :
    ∃ changeKind payload, r.Waits n id changeKind payload := by
  have hne := ne_zero_of_eta hwaiting
  obtain ⟨m, c, approval, -, hmn, hsucceeds, hschedules, -, hrecord, -⟩ :=
    exists_schedule (Nat.zero_le n) (Ne.symm hne) hne
  exact ⟨c.kind, c.payload, hwaiting, by rw [hrecord]; rfl, by rw [hrecord]; rfl,
    m, hmn, approval, hsucceeds, hschedules.call_eq⟩

/-- What waits is a valid change. -/
theorem Waits.exists_change {n : ℕ} {id : B256} {changeKind : UInt8} {payload : Bytes}
    (h : r.Waits n id changeKind payload) :
    changeKind :: payload ∈ r.hashed ∧
      ∃ c : Change, c.kind = changeKind ∧ c.payload = payload := by
  obtain ⟨m, -, approval, hsucceeds, hcall⟩ := h.scheduled
  refine ⟨⟨m, hsucceeds, by rw [hcall]; exact List.mem_cons_self⟩, ?_⟩
  have hstep := hsucceeds.step
  rw [hcall] at hstep
  obtain ⟨c, hschedules⟩ := hstep.schedules
  obtain ⟨hkind, hpayload, -⟩ := Call.scheduleChange.inj hschedules.call_eq
  exact ⟨c, hkind.symm, hpayload.symm⟩

/-- A waiting change of an owner names that owner. -/
theorem Waits.names {n : ℕ} {id : B256} {changeKind : UInt8} {nullifier : B256}
    (h : r.Waits n id changeKind nullifier.bytes) :
    Names r.host r.hashed ((r.state n).pending id) changeKind nullifier :=
  ⟨h.kind, h.hash, h.exists_change.1⟩

theorem applicable_of_waits {n : ℕ} (hfits : WaitingFits r.host r.hashed (r.state n))
    (hinit : (r.state n).initialized = true) {id : B256} {c : Change}
    (h : r.Waits n id c.kind c.payload) : (r.state n).Applicable r.host c := by
  cases c with
  | addOwner nullifier => exact hfits.addition id nullifier.value h.names
  | removeOwner nullifier =>
      refine ⟨hfits.removal id nullifier.value h.names, ?_⟩
      have hmem : id ∈ idsWith IsRemoval (r.state n) := h.kind
      have hpos := (Set.ncard_pos idsWith_finite).mpr ⟨id, hmem⟩
      have hlt := hfits.removals hinit
      omega
  | _ => exact trivial

end Run

/-- In every reachable state of an initialized account each waiting change is the
one that was scheduled, and applying it succeeds at any time from its eta on.
Waiting removals name distinct owners, fewer than there are; waiting additions
name distinct nullifiers that are no owners. -/
theorem Run.waiting_changes_apply (r : Run) (hregular : r.Regular)
    (hnonce : r.NonceFits) (hepoch : r.EpochFits) (hkeys : r.KeysInjective) (n : ℕ)
    (hinit : (r.state n).initialized = true) :
    (∀ id, ((r.state n).pending id).eta ≠ 0 →
      ∃ changeKind payload, r.Waits n id changeKind payload) ∧
    (∀ id changeKind payload, r.Waits n id changeKind payload →
      ∀ vm : Vm, ((r.state n).pending id).eta ≤ vm.blockTimestamp →
        ∃ out, (r.state n).exec r.host vm (.applyChange id changeKind payload) =
          .ok out) ∧
    (∀ id id' changeKind payload, r.Waits n id changeKind payload →
      r.Waits n id' changeKind payload → id = id') ∧
    (∀ id nullifier, r.Waits n id Changes.removeOwner nullifier.bytes →
      (r.state n).owner r.host nullifier = true) ∧
    {id | ((r.state n).pending id).changeKind = Changes.removeOwner}.ncard <
      (r.state n).ownerCount.toNat ∧
    ∀ id nullifier, r.Waits n id Changes.addOwner nullifier.bytes →
      (r.state n).owner r.host nullifier = false := by
  have hsound := hregular.pendingSound n
  have hfits := waitingFits hregular hnonce hepoch hkeys n
  refine ⟨fun id => exists_waits, ?_, ?_, fun id nullifier h => hfits.removal id nullifier
    h.names, hfits.removals hinit, fun id nullifier h => hfits.addition id nullifier h.names⟩
  · intro id changeKind payload h vm hready
    obtain ⟨-, c, rfl, rfl⟩ := h.exists_change
    obtain ⟨out, hout, -⟩ := exists_outcome_of_applicable hinit h.waiting ⟨h.kind, h.hash⟩
      (hsound.epoch id (ne_zero_of_eta h.waiting)) hready
      (applicable_of_waits hfits hinit h)
    exact ⟨out, hout⟩
  · intro id id' changeKind payload h h'
    exact hsound.distinct id id' (ne_zero_of_eta h.waiting) (ne_zero_of_eta h'.waiting)
      (h.hash.trans h'.hash.symm)

/-- The change to the guardian waits as it was scheduled. -/
theorem waiting_changes_apply_sample :
    ∃ changeKind payload, Sample.run.Waits 3 Sample.changeId changeKind payload :=
  (Run.waiting_changes_apply Sample.run Sample.regular Sample.nonceFits Sample.epochFits
    Sample.keysInjective 3 (Sample.initialized (by decide))).1 Sample.changeId Sample.waiting

end VeraKey
