/-
The owner set in every state of a run: a map under hashed keys, a counter and an
epoch, of which additions, removals and recovery each touch only some.  A pending
recovery names the owner of the next epoch.
-/
import VeraKey.KeyedSet
import VeraKey.Waiting

namespace VeraKey

open ByteCodec VeraKeyAccount KeyedSet

/-- Nonzero canonical field elements are the only owners. -/
def ValidOwner (nullifier : B256) : Prop :=
  nullifier ≠ 0 ∧ isFieldElement nullifier = true

theorem Nullifier.validOwner (nullifier : Nullifier) : ValidOwner nullifier.value :=
  ⟨nullifier.ne_zero, nullifier.canonical⟩

/-- No other epoch or nullifier has this owner's key. -/
abbrev OwnKey (host : Host) (epoch : U256) (nullifier : B256) : Prop :=
  InjectiveAt (ownerKey host) epoch nullifier

/-- The owner set agrees with its counter, and no later epoch has an entry. -/
structure OwnersSound (host : Host) (s : VeraKeyAccount) (members : Finset B256) :
    Prop where
  lists : Lists s.owners (ownerKey host) s.ownerEpoch members
  count : members.card = s.ownerCount.toNat
  pos : 0 < s.ownerCount.toNat
  valid : ∀ nullifier ∈ members, ValidOwner nullifier
  ownKey : ∀ nullifier ∈ members, OwnKey host s.ownerEpoch nullifier
  noneAfter : NoneAfter s.owners (ownerKey host) BitVec.toNat s.ownerEpoch

variable {host : Host} {vm : Vm} {s s' : VeraKeyAccount} {call : Call}
  {transfers : List Transfer} {members : Finset B256}

theorem OwnersSound.mem_iff (h : OwnersSound host s members) (nullifier : B256) :
    nullifier ∈ members ↔ s.owner host nullifier = true :=
  h.lists nullifier

theorem OwnersSound.congr (h : OwnersSound host s members)
    (howners : s'.owners = s.owners) (hcount : s'.ownerCount = s.ownerCount)
    (hepoch : s'.ownerEpoch = s.ownerEpoch) : OwnersSound host s' members := by
  constructor
  · rw [howners, hepoch]
    exact h.lists
  · rw [hcount]
    exact h.count
  · rw [hcount]
    exact h.pos
  · exact h.valid
  · rw [hepoch]
    exact h.ownKey
  · rw [howners, hepoch]
    exact h.noneAfter

/-- The owner fields after an owner was added. -/
theorem OwnersSound.add (h : OwnersSound host s members) {nullifier : Nullifier}
    (hkey : OwnKey host s.ownerEpoch nullifier.value)
    (habsent : s.owner host nullifier.value = false)
    (hsucc : (s.ownerCount + 1).toNat = s.ownerCount.toNat + 1)
    (hs' : s'.owners = Function.update s.owners
      (ownerKey host s.ownerEpoch nullifier.value) true)
    (hcount : s'.ownerCount = s.ownerCount + 1) (hepoch : s'.ownerEpoch = s.ownerEpoch) :
    OwnersSound host s' (insert nullifier.value members) := by
  have hnotMem : nullifier.value ∉ members := fun hmem =>
    Bool.false_ne_true (habsent.symm.trans ((h.mem_iff _).mp hmem))
  rw [← hcount] at hsucc
  constructor
  · rw [hs', hepoch]
    exact h.lists.insert hkey
  · rw [Finset.card_insert_of_notMem hnotMem, h.count, hsucc]
  · omega
  · simpa [nullifier.validOwner] using h.valid
  · rw [hepoch]
    intro m hm
    rcases Finset.mem_insert.mp hm with rfl | hm
    · exact hkey
    · exact h.ownKey m hm
  · rw [hs', hepoch]
    exact h.noneAfter.update hkey true

theorem toNat_ownerCount_pred (hlast : 1 < s.ownerCount.toNat) :
    (s.ownerCount - 1).toNat = s.ownerCount.toNat - 1 := by
  have hone : (1 : UInt64) ≤ s.ownerCount := by
    rw [UInt64.le_iff_toNat_le, UInt64.toNat_one]
    omega
  rw [UInt64.toNat_sub_of_le _ _ hone, UInt64.toNat_one]

/-- The owner fields after an owner other than the last was removed. -/
theorem OwnersSound.remove (h : OwnersSound host s members) {nullifier : B256}
    (howner : s.owner host nullifier = true) (hlast : 1 < s.ownerCount.toNat)
    (hs' : s'.owners = Function.update s.owners (ownerKey host s.ownerEpoch nullifier) false)
    (hcount : s'.ownerCount = s.ownerCount - 1) (hepoch : s'.ownerEpoch = s.ownerEpoch) :
    OwnersSound host s' (members.erase nullifier) := by
  have hmem : nullifier ∈ members := (h.mem_iff nullifier).mpr howner
  have hkey := h.ownKey nullifier hmem
  have hpred : s'.ownerCount.toNat = s.ownerCount.toNat - 1 := by
    rw [hcount, toNat_ownerCount_pred hlast]
  constructor
  · rw [hs', hepoch]
    exact h.lists.erase hkey
  · rw [Finset.card_erase_of_mem hmem, h.count, hpred]
  · omega
  · exact fun m hm => h.valid m (Finset.mem_of_mem_erase hm)
  · rw [hepoch]
    exact fun m hm => h.ownKey m (Finset.mem_of_mem_erase hm)
  · rw [hs', hepoch]
    exact h.noneAfter.update hkey false

/-- The owner fields after an epoch began with one owner. -/
theorem ownersSound_singleton {entries : B256 → Bool} {epoch : U256} {nullifier : B256}
    (hnone : ∀ m, member entries (ownerKey host) epoch m = false)
    (hafter : NoneAfter entries (ownerKey host) BitVec.toNat epoch)
    (hkey : OwnKey host epoch nullifier) (hvalid : ValidOwner nullifier)
    (hs' : s'.owners = Function.update entries (ownerKey host epoch nullifier) true)
    (hcount : s'.ownerCount = 1) (hepoch : s'.ownerEpoch = epoch) :
    OwnersSound host s' {nullifier} := by
  constructor
  · rw [hs', hepoch]
    exact Lists.singleton hnone hkey
  · rw [hcount]
    rfl
  · rw [hcount]
    decide
  · simpa using hvalid
  · rw [hepoch]
    simpa using hkey
  · rw [hs', hepoch]
    exact hafter.update hkey true

/-! ## What one call does to the owners -/

/-- The owner fields before and after a successful call. -/
inductive OwnersMove (host : Host) (s : VeraKeyAccount) : Call → VeraKeyAccount → Prop
  | same {call : Call} {s' : VeraKeyAccount} (howners : s'.owners = s.owners)
      (hcount : s'.ownerCount = s.ownerCount) (hepoch : s'.ownerEpoch = s.ownerEpoch) :
      OwnersMove host s call s'
  | initialized {c : Configuration} {s' : VeraKeyAccount} (hinit : s.initialized = false)
      (hvalid : ValidOwner c.ownerNullifier)
      (howners : s'.owners = Function.update s.owners
        (ownerKey host s.ownerEpoch c.ownerNullifier) true)
      (hcount : s'.ownerCount = 1) (hepoch : s'.ownerEpoch = s.ownerEpoch) :
      OwnersMove host s (.initializeAccount c) s'
  | added {changeId : B256} {nullifier : Nullifier} {s' : VeraKeyAccount}
      (habsent : s.owner host nullifier.value = false)
      (howners : s'.owners = Function.update s.owners
        (ownerKey host s.ownerEpoch nullifier.value) true)
      (hcount : s'.ownerCount = s.ownerCount + 1) (hepoch : s'.ownerEpoch = s.ownerEpoch) :
      OwnersMove host s (.applyChange changeId Changes.addOwner nullifier.value.bytes) s'
  | removed {changeId : B256} {nullifier : Nullifier} {s' : VeraKeyAccount}
      (howner : s.owner host nullifier.value = true) (hlast : 1 < s.ownerCount.toNat)
      (howners : s'.owners = Function.update s.owners
        (ownerKey host s.ownerEpoch nullifier.value) false)
      (hcount : s'.ownerCount = s.ownerCount - 1) (hepoch : s'.ownerEpoch = s.ownerEpoch) :
      OwnersMove host s (.applyChange changeId Changes.removeOwner nullifier.value.bytes) s'
  | recovered {s' : VeraKeyAccount} (heta : s.recoveryEta ≠ 0)
      (howners : s'.owners = Function.update s.owners
        (ownerKey host (s.ownerEpoch + 1) s.recoveryNullifier) true)
      (hcount : s'.ownerCount = 1) (hepoch : s'.ownerEpoch = s.ownerEpoch + 1) :
      OwnersMove host s .executeRecovery s'

theorem Step.ownersMove (h : Step host vm s call s' transfers) :
    OwnersMove host s call s' := by
  cases h with
  | initializeAccount hinit hvalid =>
      simp only [Configuration.valid, Bool.and_eq_true, decide_eq_true_eq] at hvalid
      exact .initialized hinit ⟨hvalid.1.1.1.1.2, hvalid.1.1.1.1.1.2⟩ rfl rfl rfl
  | @restrict c _ _ hrestrictive =>
      cases c with
      | addOwner => exact absurd hrestrictive id
      | removeOwner => exact absurd hrestrictive id
      | _ => exact .same (by simp [applied]) (by simp [applied]) (by simp)
  | @applyChange _ c _ _ _ _ _ _ happlicable =>
      cases c with
      | addOwner nullifier => exact .added happlicable rfl rfl rfl
      | removeOwner nullifier => exact .removed happlicable.1 happlicable.2 rfl rfl rfl
      | _ => exact .same (by simp [applied]) (by simp [applied]) (by simp)
  | executeRecovery heta => exact .recovered heta rfl rfl rfl
  | _ => exact .same (by simp) (by simp) (by simp)

/-- The entry keys a successful call writes. -/
def Call.entries (s : VeraKeyAccount) : Call → Set (U256 × B256)
  | .initializeAccount c => {(s.ownerEpoch, c.ownerNullifier)}
  | .applyChange _ changeKind payload =>
      {entry | (changeKind = Changes.addOwner ∨ changeKind = Changes.removeOwner) ∧
        entry.1 = s.ownerEpoch ∧ entry.2.bytes = payload}
  | .executeRecovery => {(s.ownerEpoch + 1, s.recoveryNullifier)}
  | _ => ∅

/-! ## What one call does to a pending recovery -/

/-- The call names an owner that waits for the recovery delay. -/
def Call.Initiates : Call → Prop
  | .initiateRecovery .. => True
  | _ => False

/-- The calls after which no recovery is pending. -/
def Call.VoidsRecovery : Call → Prop
  | .cancelRecovery _ | .guardianCancelRecovery _ | .executeRecovery => True
  | .applyChange _ changeKind _ => changeKind = Changes.setGuardian
  | _ => False

/-- The recovery fields before and after a successful call. -/
inductive RecoveryMove (host : Host) (vm : Vm) (s s' : VeraKeyAccount) : Call → Prop
  | same {call : Call} (hnot : ¬ call.Initiates)
      (heta : s'.recoveryEta = s.recoveryEta)
      (hnullifier : s'.recoveryNullifier = s.recoveryNullifier) :
      RecoveryMove host vm s s' call
  | initiated {nullifier salt : B256} (hvalid : ValidOwner nullifier)
      (hinit : s.initialized = true) (hopens : s.OpensGuardian host vm salt)
      (heta : s'.recoveryEta = vm.blockTimestamp + s.recoveryDelay)
      (hnullifier : s'.recoveryNullifier = nullifier) :
      RecoveryMove host vm s s' (.initiateRecovery nullifier salt)
  | voided {call : Call} (hvoids : call.VoidsRecovery) (heta : s'.recoveryEta = 0) :
      RecoveryMove host vm s s' call

theorem Step.recoveryMove (h : Step host vm s call s' transfers) :
    RecoveryMove host vm s s' call := by
  cases h with
  | @restrict c _ _ hrestrictive =>
      cases c with
      | setGuardian => exact absurd hrestrictive id
      | _ => exact .same id (by simp [applied, setOwner]) (by simp [applied, setOwner])
  | @applyChange _ c =>
      cases c with
      | setGuardian => exact .voided rfl rfl
      | _ => exact .same id (by simp [applied, setOwner]) (by simp [applied, setOwner])
  | initiateRecovery nullifier hinit hopens =>
      exact .initiated nullifier.validOwner hinit hopens rfl rfl
  | executeRecovery => exact .voided trivial rfl
  | cancelRecovery => exact .voided trivial rfl
  | guardianCancelRecovery => exact .voided trivial rfl
  | _ => exact .same id (by simp) (by simp)

theorem Step.recoveryEta_of_voids (h : Step host vm s call s' transfers)
    (hvoids : call.VoidsRecovery) : s'.recoveryEta = 0 := by
  cases h with
  | @applyChange _ c =>
      obtain ⟨commitment, rfl⟩ := Change.kind_eq_setGuardian.mp hvoids
      rfl
  | executeRecovery => rfl
  | cancelRecovery => rfl
  | guardianCancelRecovery => rfl
  | _ => exact absurd hvoids id

theorem Step.recovery_ready (h : Step host vm s .executeRecovery s' transfers) :
    s.recoveryEta ≠ 0 ∧ s.recoveryEta ≤ vm.blockTimestamp := by
  cases h with
  | executeRecovery heta hready => exact ⟨heta, hready⟩

/-- A pending recovery names a valid owner. -/
def RecoverySound (s : VeraKeyAccount) : Prop :=
  s.recoveryEta ≠ 0 → ValidOwner s.recoveryNullifier

theorem Step.recoverySound (h : Step host vm s call s' transfers)
    (hsound : RecoverySound s) : RecoverySound s' := by
  intro heta
  cases h.recoveryMove with
  | same _ hsame hnullifier =>
      rw [hsame] at heta
      rw [hnullifier]
      exact hsound heta
  | initiated hvalid _ _ _ hnullifier =>
      rw [hnullifier]
      exact hvalid
  | voided _ hzero => exact absurd hzero heta

/-! ## Counting records -/

/-- The ids whose record satisfies `p`. -/
def idsWith (p : PendingChange → Prop) (s : VeraKeyAccount) : Set B256 :=
  {id | p (s.pending id)}

theorem idsWith_finite {p : PendingChange → Prop} : (idsWith p s).Finite :=
  Set.toFinite _

section Counting

variable {p : PendingChange → Prop}

theorem Thins.idsWith_subset (h : Thins s s') (hp : ¬ p 0) :
    idsWith p s' ⊆ idsWith p s := by
  intro id hid
  rcases h.records id with hsame | hzero
  · rw [idsWith, Set.mem_ofPred_eq, hsame] at hid
    exact hid
  · rw [idsWith, Set.mem_ofPred_eq, hzero] at hid
    exact absurd hid hp

theorem Thins.ncard_le (h : Thins s s') (hp : ¬ p 0) :
    (idsWith p s').ncard ≤ (idsWith p s).ncard :=
  Set.ncard_le_ncard (h.idsWith_subset hp) idsWith_finite

theorem Schedules.idsWith_subset {c : Change} {approval : Approval}
    (h : Schedules host vm s s' call c approval) :
    idsWith p s' ⊆ insert (s.scheduledId host c approval) (idsWith p s) := by
  intro id hid
  by_cases heq : id = s.scheduledId host c approval
  · exact Or.inl heq
  · rw [idsWith, Set.mem_ofPred_eq, h.pending_eq, Function.update_of_ne heq] at hid
    exact Or.inr hid

theorem Schedules.ncard_le {c : Change} {approval : Approval}
    (h : Schedules host vm s s' call c approval) :
    (idsWith p s').ncard ≤ (idsWith p s).ncard + 1 :=
  (Set.ncard_le_ncard h.idsWith_subset (idsWith_finite.insert _)).trans
    (Set.ncard_insert_le _ _)

/-- A scheduled change that does not satisfy `p` adds nothing. -/
theorem Schedules.ncard_le_of_not {c : Change} {approval : Approval}
    (h : Schedules host vm s s' call c approval) (hp : ¬ p (s.scheduledRecord host vm c)) :
    (idsWith p s').ncard ≤ (idsWith p s).ncard := by
  apply Set.ncard_le_ncard _ idsWith_finite
  intro id hid
  rcases h.idsWith_subset hid with rfl | hold
  · rw [idsWith, Set.mem_ofPred_eq, h.pending_eq, Function.update_self] at hid
    exact absurd hid hp
  · exact hold

theorem Applies.pending_eq {changeId : B256} {c : Change}
    (h : Applies host vm s s' call changeId c) :
    s'.pending = Function.update s.pending changeId 0 := by
  rw [h.state]
  exact SlotTable.Table.remove_records

/-- An applied change no longer counts. -/
theorem Applies.ncard_succ_le {changeId : B256} {c : Change}
    (h : Applies host vm s s' call changeId c) (hp : ¬ p 0)
    (hmem : p (s.pending changeId)) :
    (idsWith p s').ncard + 1 ≤ (idsWith p s).ncard := by
  have hsubset : idsWith p s' ⊆ idsWith p s \ {changeId} := by
    intro id hid
    rw [idsWith, Set.mem_ofPred_eq, h.pending_eq] at hid
    by_cases heq : id = changeId
    · rw [heq, Function.update_self] at hid
      exact absurd hid hp
    · rw [Function.update_of_ne heq] at hid
      exact ⟨hid, heq⟩
  have hle := Set.ncard_le_ncard hsubset idsWith_finite.sdiff
  have hone := Set.ncard_sdiff_singleton_add_one (s := idsWith p s) hmem idsWith_finite
  omega

end Counting

/-! ## The counter does not overflow -/

/-- Each waiting change used a nonce, and so did each owner but the first. -/
def OwnersWithinNonce (s : VeraKeyAccount) : Prop :=
  s.ownerCount.toNat + (idsWith (· ≠ 0) s).ncard ≤ s.nonce.toNat + 1

theorem idsWith_fresh {p : PendingChange → Prop} (hp : ¬ p 0) : idsWith p .fresh = ∅ :=
  Set.eq_empty_iff_forall_notMem.mpr fun _ hid => hp hid

/-- An applied change makes room in the counter. -/
theorem Applies.toNat_ownerCount_succ {changeId : B256} {c : Change}
    (h : Applies host vm s s' call changeId c) (hwithin : OwnersWithinNonce s)
    (hnonce : s.nonce.toNat < 2 ^ 64 - 1) :
    (s.ownerCount + 1).toNat = s.ownerCount.toNat + 1 := by
  have hwaiting := h.ncard_succ_le (p := (· ≠ 0)) (not_not.mpr rfl)
    (ne_zero_of_eta h.waiting)
  unfold OwnersWithinNonce at hwithin
  rw [UInt64.toNat_add, UInt64.toNat_one]
  omega

/-- An initialized account keeps an owner. -/
theorem Step.ownerCount_pos (h : Step host vm s call s' transfers)
    (hwithin : OwnersWithinNonce s) (hnonce : s.nonce.toNat < 2 ^ 64 - 1)
    (hpos : s.initialized = true → 0 < s.ownerCount.toNat) (hinit : s'.initialized = true) :
    0 < s'.ownerCount.toNat := by
  by_cases hbefore : s.initialized = true
  · have hpos := hpos hbefore
    cases h.ownersMove with
    | same _ hcount => rwa [hcount]
    | initialized hfresh => exact absurd (hbefore.symm.trans hfresh) (by decide)
    | added _ _ hcount =>
        obtain ⟨c, happlies⟩ := h.applies
        rw [hcount, happlies.toNat_ownerCount_succ hwithin hnonce]
        exact Nat.succ_pos _
    | removed _ hlast _ hcount =>
        rw [hcount, toNat_ownerCount_pred hlast]
        omega
    | recovered _ _ hcount =>
        rw [hcount]
        decide
  · cases h with
    | initializeAccount => exact Nat.one_pos
    | _ => exact absurd hinit (by simp [hbefore])

theorem Step.ownersWithinNonce (h : Step host vm s call s' transfers)
    (hwithin : OwnersWithinNonce s) (hnonce : s.nonce.toNat < 2 ^ 64 - 1)
    (hpos : s.initialized = true → 0 < s.ownerCount.toNat)
    (hfresh : s.initialized = true ∨ s = .fresh) : OwnersWithinNonce s' := by
  have hbound := hwithin
  unfold OwnersWithinNonce at hbound ⊢
  have hle : s.nonce.toNat ≤ s'.nonce.toNat := by
    rcases h.nonce_cases with hsame | hnext
    · rw [hsame]
    · rw [hnext, UInt64.toNat_add, UInt64.toNat_one]
      omega
  rcases h.schedules_or_thins with ⟨c, approval, hschedules⟩ | hthins
  · have hsucc : s'.nonce.toNat = s.nonce.toNat + 1 := by
      rw [hschedules.nonce, UInt64.toNat_add, UInt64.toNat_one]
      omega
    have hcard := hschedules.ncard_le (p := (· ≠ 0))
    have hcount : s'.ownerCount = s.ownerCount := by
      have hmove := h.ownersMove
      rw [hschedules.call_eq] at hmove
      cases hmove with
      | same _ hcount => exact hcount
    rw [hcount]
    omega
  · have hcard := hthins.ncard_le (p := (· ≠ 0)) (not_not.mpr rfl)
    cases h.ownersMove with
    | same _ hcount =>
        rw [hcount]
        omega
    | initialized hinit _ _ hcount =>
        obtain rfl := hfresh.resolve_left (by rw [hinit]; exact Bool.false_ne_true)
        have hnone : (idsWith (· ≠ 0) fresh).ncard = 0 := by
          rw [idsWith_fresh (not_not.mpr rfl), Set.ncard_empty]
        rw [hcount, UInt64.toNat_one]
        omega
    | added _ _ hcount =>
        obtain ⟨c, happlies⟩ := h.applies
        have hcard := happlies.ncard_succ_le (p := (· ≠ 0)) (not_not.mpr rfl)
          (ne_zero_of_eta happlies.waiting)
        rw [hcount, happlies.toNat_ownerCount_succ hwithin hnonce]
        omega
    | removed _ hlast _ hcount =>
        rw [hcount, toNat_ownerCount_pred hlast]
        omega
    | recovered heta _ hcount =>
        have hinit : s.initialized = true := by
          rcases hfresh with hinit | rfl
          · exact hinit
          · exact absurd rfl heta
        have hpos := hpos hinit
        rw [hcount, UInt64.toNat_one]
        omega

end VeraKey
