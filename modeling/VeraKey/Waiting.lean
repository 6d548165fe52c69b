/-
The pending table in every state of a run: slots and records agree, every record
is a valid change of the current owner epoch, and an id that left the table
never comes back.
-/
import VeraKey.FiniteRun

namespace VeraKey

open ByteCodec VeraKeyAccount

/-- The record stands for the change `c`. -/
structure PendingChange.Encodes (host : Host) (record : PendingChange) (c : Change) :
    Prop where
  kind : record.changeKind = c.kind
  hash : record.payloadHash = c.hash host

/-- The pending table is sound; `used` holds what was hashed for its ids.  Each id
is the hash of the action that carries its record's hash. -/
structure PendingSound (host : Host) (used : Set Bytes) (s : VeraKeyAccount) : Prop where
  consistent : s.table.Consistent
  eta_ne_zero : ∀ id, s.pending id ≠ 0 → (s.pending id).eta ≠ 0
  epoch : ∀ id, s.pending id ≠ 0 → (s.pending id).ownerEpoch = s.ownerEpoch
  change : ∀ id, s.pending id ≠ 0 → ∃ c, c ≠ .freeze ∧ (s.pending id).Encodes host c
  distinct : ∀ id id', s.pending id ≠ 0 → s.pending id' ≠ 0 →
    (s.pending id).payloadHash = (s.pending id').payloadHash → id = id'
  origin : ∀ id, s.pending id ≠ 0 → ∃ action : Action, action.encode ∈ used ∧
    id = host.keccak action.encode ∧ action.dataHash = (s.pending id).payloadHash

variable {host : Host} {used : Set Bytes} {vm : Vm} {s s' : VeraKeyAccount} {call : Call}
  {transfers : List Transfer}

@[simp]
theorem VeraKeyAccount.applied_table (c : Change) :
    (s.applied host c).table = s.table := by
  cases c <;> rfl

/-! ## What one call does to the table -/

/-- The change that a call schedules, with its approval. -/
structure Schedules (host : Host) (vm : Vm) (s s' : VeraKeyAccount) (call : Call)
    (c : Change) (approval : Approval) : Prop where
  call_eq : call = .scheduleChange c.kind c.payload approval
  schedulable : s.Schedulable host c
  authorized : Authorized host vm s
    (s.approvedAction host Kind.scheduleChange 0 0 (c.hash host) approval) approval none
  nonce : s'.nonce = s.nonce + 1
  ownerEpoch : s'.ownerEpoch = s.ownerEpoch
  table : ∃ t, s.table.track (s.scheduledId host c approval) = some t ∧
    s'.table = t.setRecord (s.scheduledId host c approval) (s.scheduledRecord host vm c)

theorem Step.schedules {changeKind : UInt8} {payload : Bytes} {approval : Approval}
    (h : Step host vm s (.scheduleChange changeKind payload approval) s' transfers) :
    ∃ c, Schedules host vm s s' (.scheduleChange changeKind payload approval) c
      approval := by
  cases h with
  | scheduleChange hschedulable hcaps hauth htrack =>
      exact ⟨_, rfl, hschedulable, hauth, by simp, by simp, _, htrack, table_withTable _⟩

theorem Schedules.pending_eq {c : Change} {approval : Approval}
    (h : Schedules host vm s s' call c approval) :
    s'.pending = Function.update s.pending (s.scheduledId host c approval)
      (s.scheduledRecord host vm c) := by
  obtain ⟨t, htrack, htable⟩ := h.table
  obtain ⟨i, -, rfl⟩ := SlotTable.Table.track_eq_some htrack
  exact congrArg SlotTable.Table.records htable

/-- The call applies the waiting change `c`. -/
structure Applies (host : Host) (vm : Vm) (s s' : VeraKeyAccount) (call : Call)
    (changeId : B256) (c : Change) : Prop where
  call_eq : call = .applyChange changeId c.kind c.payload
  initialized : s.initialized = true
  waiting : (s.pending changeId).eta ≠ 0
  encodes : (s.pending changeId).Encodes host c
  epoch : (s.pending changeId).ownerEpoch = s.ownerEpoch
  ready : (s.pending changeId).eta ≤ vm.blockTimestamp
  applicable : s.Applicable host c
  state : s' = (s.applied host c).withTable (s.table.remove changeId)

theorem Step.applies {changeId : B256} {changeKind : UInt8} {payload : Bytes}
    (h : Step host vm s (.applyChange changeId changeKind payload) s' transfers) :
    ∃ c : Change, Applies host vm s s' (.applyChange changeId changeKind payload)
      changeId c := by
  cases h with
  | applyChange hinit heta hkind hhash hepoch hready happlicable =>
      exact ⟨_, rfl, hinit, heta, ⟨hkind, hhash⟩, hepoch, hready, happlicable, rfl⟩

/-- The table after a call has the records it had, or lost some of them. -/
structure Thins (s s' : VeraKeyAccount) : Prop where
  consistent : s.table.Consistent → s'.table.Consistent
  records : ∀ id, s'.pending id = s.pending id ∨ s'.pending id = 0

theorem Thins.of_table_eq (h : s'.table = s.table) : Thins s s' where
  consistent hcons := h ▸ hcons
  records id := Or.inl (congrFun (congrArg SlotTable.Table.records h) id)

theorem Thins.of_remove {changeId : B256} (h : s'.table = s.table.remove changeId) :
    Thins s s' where
  consistent hcons := h ▸ hcons.remove
  records id := by
    have hrecords : s'.pending id = (s.table.remove changeId).records id :=
      congrFun (congrArg SlotTable.Table.records h) id
    rw [hrecords, SlotTable.Table.remove_records, Function.update_apply]
    split
    · exact Or.inr rfl
    · exact Or.inl rfl

theorem Thins.of_clear {kept : PendingChange → Bool} (h : s'.table = s.table.clear kept) :
    Thins s s' where
  consistent hcons := h ▸ hcons.clear
  records id := by
    have hrecords : s'.pending id = (s.table.clear kept).records id :=
      congrFun (congrArg SlotTable.Table.records h) id
    rw [hrecords]
    exact SlotTable.Table.foldl_clearSlot_records _ id

theorem Applies.thins {changeId : B256} {c : Change}
    (h : Applies host vm s s' call changeId c) : Thins s s' := by
  have htable : s'.table = s.table.remove changeId := by rw [h.state, table_withTable]
  exact .of_remove htable

/-- A call schedules one change, or only removes waiting ones. -/
theorem Step.schedules_or_thins (h : Step host vm s call s' transfers) :
    (∃ c approval, Schedules host vm s s' call c approval) ∨ Thins s s' := by
  cases h with
  | scheduleChange hschedulable hcaps hauth htrack =>
      obtain ⟨c, hschedules⟩ :=
        (Step.scheduleChange hschedulable hcaps hauth htrack).schedules
      exact Or.inl ⟨c, _, hschedules⟩
  | restrict => exact Or.inr (.of_table_eq (applied_table _))
  | restrictFreeze => exact Or.inr (.of_clear (table_withTable _))
  | applyChange => exact Or.inr (.of_remove (table_withTable _))
  | cancelChange => exact Or.inr (.of_remove (table_withTable _))
  | guardianCancelChange => exact Or.inr (.of_remove (table_withTable _))
  | guardianFreeze => exact Or.inr (.of_clear (table_withTable _))
  | executeRecovery => exact Or.inr (.of_clear (table_withTable _))
  | _ => exact Or.inr (.of_table_eq rfl)

/-- A recovery leaves no change waiting. -/
theorem Step.pending_of_executeRecovery
    (h : Step host vm s .executeRecovery s' transfers) (hcons : s.table.Consistent)
    (id : B256) : s'.pending id = 0 := by
  cases h with
  | executeRecovery =>
      rw [withTable_pending, hcons.clear_records]
      exact if_neg (by simp [keptOnCancel])

/-! ## The invariant -/

theorem pendingSound_fresh : PendingSound host used .fresh where
  consistent := SlotTable.Table.consistent_empty
  eta_ne_zero _ h := absurd rfl h
  epoch _ h := absurd rfl h
  change _ h := absurd rfl h
  distinct _ _ h := absurd rfl h
  origin _ h := absurd rfl h

/-- A change that can be scheduled is not waiting. -/
theorem PendingSound.payloadHash_ne (h : PendingSound host used s) {c : Change}
    (hschedulable : s.Schedulable host c) {id : B256} (hne : s.pending id ≠ 0) :
    (s.pending id).payloadHash ≠ c.hash host := by
  obtain ⟨-, index, rfl⟩ := (h.consistent.listed_iff id).mpr hne
  refine hschedulable.distinct index fun hzero => hne ?_
  have hslot : s.table.slots index = 0 := hzero
  rw [hslot]
  exact h.consistent.records_zero

/-- The id of a change that can be scheduled is not in the table: what waits under
it would be that change. -/
theorem PendingSound.scheduledId_fresh (h : PendingSound host used s)
    (hinj : Set.InjOn host.keccak used) {c : Change} {approval : Approval}
    (hschedulable : s.Schedulable host c)
    (hused : (s.approvedAction host Kind.scheduleChange 0 0 (c.hash host)
      approval).encode ∈ used) :
    s.pending (s.scheduledId host c approval) = 0 := by
  by_contra hne
  obtain ⟨action, hmem, hid, hdata⟩ := h.origin _ hne
  have haction := Action.encode_inj (hinj hused hmem hid)
  apply h.payloadHash_ne hschedulable hne
  rw [← hdata, ← haction]
  rfl

/-- Removing waiting changes keeps the invariant, as long as those that stay are
of the current epoch. -/
theorem PendingSound.thins (h : PendingSound host used s) (hthins : Thins s s')
    (hepoch : ∀ id, s'.pending id ≠ 0 → s'.ownerEpoch = s.ownerEpoch) :
    PendingSound host used s' := by
  have hkept : ∀ id, s'.pending id ≠ 0 → s'.pending id = s.pending id := fun id hne =>
    (hthins.records id).resolve_right hne
  have hold : ∀ id, s'.pending id ≠ 0 → s.pending id ≠ 0 := fun id hne =>
    hkept id hne ▸ hne
  constructor
  · exact hthins.consistent h.consistent
  · intro id hne
    rw [hkept id hne]
    exact h.eta_ne_zero id (hold id hne)
  · intro id hne
    rw [hkept id hne, hepoch id hne]
    exact h.epoch id (hold id hne)
  · intro id hne
    rw [hkept id hne]
    exact h.change id (hold id hne)
  · intro id id' hne hne' hhash
    rw [hkept id hne, hkept id' hne'] at hhash
    exact h.distinct id id' (hold id hne) (hold id' hne') hhash
  · intro id hne
    rw [hkept id hne]
    exact h.origin id (hold id hne)

theorem PendingSound.schedules (h : PendingSound host used s) {c : Change}
    {approval : Approval} (hschedules : Schedules host vm s s' call c approval)
    (hinj : Set.InjOn host.keccak used)
    (hused : (s.approvedAction host Kind.scheduleChange 0 0 (c.hash host)
      approval).encode ∈ used)
    (hid : s.scheduledId host c approval ≠ 0)
    (heta : (s.scheduledRecord host vm c).eta ≠ 0) : PendingSound host used s' := by
  obtain ⟨t, htrack, htable⟩ := hschedules.table
  have hpending := hschedules.pending_eq
  have hfresh := h.scheduledId_fresh hinj hschedules.schedulable hused
  have hrecord : s.scheduledRecord host vm c ≠ 0 := fun hzero =>
    heta (congrArg PendingChange.eta hzero)
  have hcases : ∀ id, s'.pending id ≠ 0 →
      (id = s.scheduledId host c approval ∧ s'.pending id = s.scheduledRecord host vm c) ∨
        (s.pending id ≠ 0 ∧ s'.pending id = s.pending id) := by
    intro id hne
    rw [hpending] at hne ⊢
    by_cases heq : id = s.scheduledId host c approval
    · subst heq
      exact Or.inl ⟨rfl, Function.update_self _ _ _⟩
    · rw [Function.update_of_ne heq] at hne ⊢
      exact Or.inr ⟨hne, rfl⟩
  constructor
  · rw [htable]
    exact h.consistent.insert htrack hid hfresh hrecord
  · intro id hne
    rcases hcases id hne with ⟨-, hnew⟩ | ⟨hold, hsame⟩
    · rw [hnew]
      exact heta
    · rw [hsame]
      exact h.eta_ne_zero id hold
  · intro id hne
    rw [hschedules.ownerEpoch]
    rcases hcases id hne with ⟨-, hnew⟩ | ⟨hold, hsame⟩
    · rw [hnew, scheduledRecord]
    · rw [hsame]
      exact h.epoch id hold
  · intro id hne
    rcases hcases id hne with ⟨-, hnew⟩ | ⟨hold, hsame⟩
    · rw [hnew]
      exact ⟨c, hschedules.schedulable.not_freeze, rfl, rfl⟩
    · rw [hsame]
      exact h.change id hold
  · intro id id' hne hne' hhash
    rcases hcases id hne with ⟨hid, hnew⟩ | ⟨hold, hsame⟩ <;>
      rcases hcases id' hne' with ⟨hid', hnew'⟩ | ⟨hold', hsame'⟩
    · exact hid.trans hid'.symm
    · rw [hnew, hsame'] at hhash
      exact absurd hhash.symm (h.payloadHash_ne hschedules.schedulable hold')
    · rw [hsame, hnew'] at hhash
      exact absurd hhash (h.payloadHash_ne hschedules.schedulable hold)
    · rw [hsame, hsame'] at hhash
      exact h.distinct id id' hold hold' hhash
  · intro id hne
    rcases hcases id hne with ⟨rfl, hnew⟩ | ⟨hold, hsame⟩
    · rw [hnew]
      exact ⟨_, hused, rfl, rfl⟩
    · rw [hsame]
      exact h.origin id hold

namespace Run

variable {r : Run}

theorem encode_mem_hashed {n : ℕ} {c : Change} {approval : Approval}
    (hsucceeds : r.Succeeds n)
    (hcall : r.call n = .scheduleChange c.kind c.payload approval) :
    ((r.state n).approvedAction r.host Kind.scheduleChange 0 0 (c.hash r.host)
      approval).encode ∈ r.hashed :=
  ⟨n, hsucceeds, by rw [hcall]; exact List.mem_cons_of_mem _ List.mem_cons_self⟩

theorem preimage_mem_hashed {n : ℕ} {c : Change} {approval : Approval}
    (hsucceeds : r.Succeeds n)
    (hcall : r.call n = .scheduleChange c.kind c.payload approval) :
    c.kind :: c.payload ∈ r.hashed :=
  ⟨n, hsucceeds, by rw [hcall]; exact List.mem_cons_self⟩

theorem Regular.eta_ne_zero (h : r.Regular) {n : ℕ}
    (hinit : (r.state n).initialized = true) (c : Change) :
    ((r.state n).scheduledRecord r.host (r.vm n) c).eta ≠ 0 := by
  intro hzero
  have heta := toNat_eta h.clockFits hinit c.kind
  have hpos := h.clockPositive n
  rw [show r.now n + (r.state n).scheduleDelay c.kind = 0 from hzero] at heta
  simp only [UInt64.toNat_zero] at heta
  omega

/-- The pending table is sound in every reachable state. -/
theorem Regular.pendingSound (h : r.Regular) (n : ℕ) :
    PendingSound r.host r.hashed (r.state n) := by
  refine r.invariant pendingSound_fresh (fun n hsucceeds hsound => ?_) n
  rcases hsucceeds.step.schedules_or_thins with ⟨c, approval, hschedules⟩ | hthins
  · have hused := encode_mem_hashed hsucceeds hschedules.call_eq
    exact hsound.schedules hschedules h.collisionFree hused (h.neverZero _ hused)
      (h.eta_ne_zero hschedules.authorized.initialized c)
  · refine hsound.thins hthins fun id hne => ?_
    have hstep := hsucceeds.step
    rcases hstep.ownerEpoch_cases with hsame | ⟨hcall, -⟩
    · exact hsame
    · rw [hcall] at hstep
      exact absurd (hstep.pending_of_executeRecovery hsound.consistent id) hne

/-- The step that put a record into the table scheduled it, and from there on the
record stayed as it was. -/
theorem exists_schedule {i j : ℕ} {id : B256} (hij : i ≤ j)
    (hi : (r.state i).pending id ≠ (r.state j).pending id)
    (hj : (r.state j).pending id ≠ 0) :
    ∃ k c approval, i ≤ k ∧ k < j ∧ r.Succeeds k ∧
      Schedules r.host (r.vm k) (r.state k) (r.state (k + 1)) (r.call k) c approval ∧
      id = (r.state k).scheduledId r.host c approval ∧
      (r.state j).pending id = (r.state k).scheduledRecord r.host (r.vm k) c ∧
      ∀ m, k < m → m ≤ j → (r.state m).pending id = (r.state j).pending id := by
  obtain ⟨k, hik, hkj, hbefore, hafter⟩ := History.exists_last_rise
    (p := fun n => (r.state n).pending id = (r.state j).pending id) hij hi rfl
  have hnext := hafter (k + 1) k.lt_succ_self hkj
  have hsucceeds : r.Succeeds k := succeeds_of_ne fun hsame =>
    hbefore (by rw [← hnext, hsame])
  rcases hsucceeds.step.schedules_or_thins with ⟨c, approval, hschedules⟩ | hthins
  · have hid : id = (r.state k).scheduledId r.host c approval := by
      by_contra hne
      rw [hschedules.pending_eq, Function.update_of_ne hne] at hnext
      exact hbefore hnext
    refine ⟨k, c, approval, hik, hkj, hsucceeds, hschedules, hid, ?_, hafter⟩
    rw [← hnext, hschedules.pending_eq, hid, Function.update_self]
  · rcases hthins.records id with hsame | hzero
    · exact absurd (hsame.symm.trans hnext) hbefore
    · exact absurd (hnext.symm.trans hzero) hj

/-- A waiting record stays as it is or is erased; none takes its place. -/
theorem Regular.pending_succ (h : r.Regular) {n : ℕ} {id : B256}
    (hne : (r.state n).pending id ≠ 0) :
    (r.state (n + 1)).pending id = (r.state n).pending id ∨
      (r.state (n + 1)).pending id = 0 := by
  by_cases hsucceeds : r.Succeeds n
  · rcases hsucceeds.step.schedules_or_thins with ⟨c, approval, hschedules⟩ | hthins
    · left
      have hfresh := (h.pendingSound n).scheduledId_fresh h.collisionFree
        hschedules.schedulable (encode_mem_hashed hsucceeds hschedules.call_eq)
      have hid : id ≠ (r.state n).scheduledId r.host c approval := by
        rintro rfl
        exact hne hfresh
      rw [hschedules.pending_eq, Function.update_of_ne hid]
    · exact hthins.records id
  · left
    rw [(state_succ_of_not_succeeds hsucceeds).1]

/-- An id that left the table never comes back, as no nonce is used twice. -/
theorem stays_removed (hinj : r.CollisionFree) (hnonce : r.NonceFits) {i j k : ℕ}
    {id : B256} (hij : i ≤ j) (hjk : j ≤ k) (hi : (r.state i).pending id ≠ 0)
    (hj : (r.state j).pending id = 0) : (r.state k).pending id = 0 := by
  by_contra hk
  obtain ⟨m, c, approval, -, hmi, hm, hschedules, hid, -⟩ :=
    exists_schedule (Nat.zero_le i) (Ne.symm hi) hi
  obtain ⟨m', c', approval', hjm', -, hm', hschedules', hid', -⟩ :=
    exists_schedule hjk (fun heq => hk (heq.symm.trans hj)) hk
  have haction := Action.encode_inj (hinj (encode_mem_hashed hm hschedules.call_eq)
    (encode_mem_hashed hm' hschedules'.call_eq) (hid.symm.trans hid'))
  have hsame : (r.state m).nonce = (r.state m').nonce :=
    U256.ofU64_inj (congrArg Action.nonce haction)
  have hle := nonce_le_of_le hnonce (show m + 1 ≤ m' by omega)
  have hfits := hnonce m
  rw [hschedules.nonce, hsame, UInt64.toNat_add, UInt64.toNat_one] at hle
  rw [hsame] at hfits
  omega

end Run

/-! ## The table of one state -/

/-- The change a call applies or cancels. -/
def Call.target : Call → Option B256
  | .applyChange changeId _ _ | .cancelChange changeId _
  | .guardianCancelChange changeId _ => some changeId
  | _ => none

/-- Only a waiting change is applied or cancelled. -/
theorem Step.target_waiting (h : Step host vm s call s' transfers) {id : B256}
    (htarget : call.target = some id) : (s.pending id).eta ≠ 0 := by
  cases h with
  | applyChange _ heta => exact Option.some.inj htarget ▸ heta
  | cancelChange heta => exact Option.some.inj htarget ▸ heta
  | guardianCancelChange _ heta => exact Option.some.inj htarget ▸ heta
  | _ => cases htarget

/-- What was applied or cancelled is no longer waiting. -/
theorem Step.target_removed (h : Step host vm s call s' transfers) {id : B256}
    (htarget : call.target = some id) : s'.pending id = 0 := by
  have hremoved : (s.table.remove id).records id = 0 := by
    rw [SlotTable.Table.remove_records, Function.update_self]
  cases h with
  | applyChange => exact Option.some.inj htarget ▸ hremoved
  | cancelChange => exact Option.some.inj htarget ▸ hremoved
  | guardianCancelChange => exact Option.some.inj htarget ▸ hremoved
  | _ => cases htarget

/-- The pending table of one state. -/
structure TableInvariant (host : Host) (s : VeraKeyAccount) : Prop where
  distinct : ∀ i j, s.pendingIds i = s.pendingIds j → s.pendingIds i ≠ 0 → i = j
  listed_iff : ∀ id, id ∈ s.pendingChangeIds ↔ (s.pending id).eta ≠ 0
  hashes : ∀ id id', (s.pending id).eta ≠ 0 → (s.pending id').eta ≠ 0 →
    (s.pending id).payloadHash = (s.pending id').payloadHash → id = id'
  valid : ∀ id, (s.pending id).eta ≠ 0 → ∃ changeKind payload,
    Changes.isValid changeKind payload = true ∧ changeKind ≠ Changes.freeze ∧
      (s.pending id).changeKind = changeKind ∧
      (s.pending id).payloadHash = changeDataHash host changeKind payload
  epoch : ∀ id, (s.pending id).eta ≠ 0 → (s.pending id).ownerEpoch = s.ownerEpoch
  erased : ∀ id, (s.pending id).eta = 0 → s.pending id = 0

theorem ne_zero_of_eta {record : PendingChange} (heta : record.eta ≠ 0) : record ≠ 0 :=
  fun hzero => heta (congrArg PendingChange.eta hzero)

theorem PendingSound.tableInvariant (h : PendingSound host used s) :
    TableInvariant host s := by
  constructor
  · exact h.consistent.distinct
  · intro id
    have hlisted := h.consistent.listed_iff id
    simp only [table_slots, table_records] at hlisted
    rw [pendingChangeIds, List.mem_filter, List.mem_map]
    simp only [List.mem_finRange, true_and, ne_eq, decide_not, Bool.not_eq_true',
      decide_eq_false_iff_not]
    exact ⟨fun ⟨hslot, hne⟩ => h.eta_ne_zero id (hlisted.mp ⟨hne, hslot⟩),
      fun heta => (hlisted.mpr (ne_zero_of_eta heta)).symm⟩
  · exact fun id id' heta heta' =>
      h.distinct id id' (ne_zero_of_eta heta) (ne_zero_of_eta heta')
  · intro id heta
    obtain ⟨c, hfreeze, hencodes⟩ := h.change id (ne_zero_of_eta heta)
    exact ⟨c.kind, c.payload, c.isValid_payload,
      fun hkind => hfreeze (Change.kind_eq_freeze.mp hkind), hencodes.kind, hencodes.hash⟩
  · exact fun id heta => h.epoch id (ne_zero_of_eta heta)
  · intro id heta
    by_contra hne
    exact h.eta_ne_zero id hne heta

/-- In every reachable state slots and records agree, every record is a valid
change of the current epoch other than a freeze, and no two stand for the same
change.  An id that was removed has a zero record and is never applied or
cancelled again, as long as the nonces last. -/
theorem Run.pending_table (r : Run) (hregular : r.Regular) (n : ℕ) :
    TableInvariant r.host (r.state n) ∧
      (r.NonceFits → ∀ id m, m ≤ n → ((r.state m).pending id).eta ≠ 0 →
        ((r.state n).pending id).eta = 0 →
          ∀ k, n ≤ k → (r.state k).pending id = 0 ∧
            ((r.call k).target = some id → ¬ r.Succeeds k)) := by
  refine ⟨(hregular.pendingSound n).tableInvariant, fun hnonce id m hmn hm hn k hnk => ?_⟩
  have hgone := stays_removed hregular.collisionFree hnonce hmn hnk (ne_zero_of_eta hm)
    ((hregular.pendingSound n).tableInvariant.erased id hn)
  refine ⟨hgone, fun htarget hsucceeds => ?_⟩
  exact hsucceeds.step.target_waiting htarget (congrArg PendingChange.eta hgone)

namespace Sample

theorem target_three : (run.call 3).target = some changeId := rfl

theorem waiting : ((run.state 3).pending changeId).eta ≠ 0 :=
  (succeeds (by decide)).step.target_waiting target_three

end Sample

/-- The change that call 3 applies is never applied or cancelled again. -/
theorem pending_table_sample :
    TableInvariant Sample.host (Sample.run.state (3 + 1)) ∧
      ∀ k, 3 < k → (Sample.run.call k).target = some Sample.changeId →
        ¬ Sample.run.Succeeds k := by
  obtain ⟨htable, hremoved⟩ := Run.pending_table Sample.run Sample.regular (3 + 1)
  have hsucceeds : Sample.run.Succeeds 3 := Sample.succeeds (by decide)
  have hzero := hsucceeds.step.target_removed Sample.target_three
  exact ⟨htable, fun k hk => (hremoved Sample.nonceFits _ 3 (by decide) Sample.waiting
    (congrArg PendingChange.eta hzero) k hk).2⟩

end VeraKey
