/-
The account's loops over its pending slots are the operations of a slot table:
taking a free slot, clearing one change, clearing all but some, and counting.
-/
import VeraKey.Entry

namespace VeraKey

open ByteCodec Guard

namespace VeraKeyAccount

variable {host : Host} {vm : Vm} {s s' : VeraKeyAccount} {changeId : B256}

/-- The pending slots with the change records. -/
def table (s : VeraKeyAccount) : SlotTable.Table maxPending B256 PendingChange :=
  ⟨s.pendingIds, s.pending⟩

@[simps -fullyApplied]
def withTable (s : VeraKeyAccount)
    (t : SlotTable.Table maxPending B256 PendingChange) : VeraKeyAccount :=
  { s with pendingIds := t.slots, pending := t.records }

@[simp]
theorem table_slots : s.table.slots = s.pendingIds := rfl

@[simp]
theorem table_records : s.table.records = s.pending := rfl

@[simp]
theorem table_setPending (change : PendingChange) :
    (s.setPending changeId change).table = s.table.setRecord changeId change := rfl

@[simp]
theorem table_withTable (t : SlotTable.Table maxPending B256 PendingChange) :
    (s.withTable t).table = t := rfl

theorem findPending_eq_find (id : B256) : s.findPending id = s.table.find id := rfl

theorem trackPending_eq_ok :
    s.trackPending changeId = .ok s' ↔
      ∃ t, s.table.track changeId = some t ∧ s' = s.withTable t := by
  simp only [trackPending, findPending_eq_find, bind_eq_ok, orElse_eq_ok, pure_eq_ok,
    SlotTable.Table.track, Option.map_eq_some_iff]
  constructor
  · rintro ⟨index, hindex, rfl⟩
    exact ⟨_, ⟨index, hindex, rfl⟩, rfl⟩
  · rintro ⟨t, ⟨index, hindex, rfl⟩, rfl⟩
    exact ⟨index, hindex, rfl⟩

theorem clearPending_eq_remove :
    s.clearPending changeId = s.withTable (s.table.remove changeId) := by
  simp only [clearPending, SlotTable.Table.remove, findPending_eq_find, table_setPending]
  cases (s.table.setRecord changeId 0).find changeId <;> rfl

/-- The changes that `cancel_pending_changes` leaves waiting. -/
def keptOnCancel (keepGuardianChanges : Bool) (change : PendingChange) : Bool :=
  keepGuardianChanges && change.changeKind == Changes.setGuardian

theorem cancelSlot_fst (keepGuardianChanges : Bool) (logs : List Event)
    (index : Fin maxPending) :
    (cancelSlot keepGuardianChanges (s, logs) index).1 =
      s.withTable (s.table.clearSlot (keptOnCancel keepGuardianChanges) index) := by
  unfold cancelSlot SlotTable.Table.clearSlot
  dsimp only
  by_cases hfree : s.pendingIds index = 0
  · have hslot : s.table.slots index = 0 := hfree
    rw [if_pos hfree, if_pos (Or.inl hslot)]
    rfl
  · have hslot : s.table.slots index ≠ 0 := hfree
    have hkept_iff : keptOnCancel keepGuardianChanges
        (s.table.records (s.table.slots index)) = true ↔ keepGuardianChanges = true ∧
          (s.pending (s.pendingIds index)).changeKind = Changes.setGuardian := by
      simp [keptOnCancel]
    rw [if_neg hfree]
    by_cases hkept : keepGuardianChanges = true ∧
        (s.pending (s.pendingIds index)).changeKind = Changes.setGuardian
    · rw [if_pos hkept, if_pos (Or.inr (hkept_iff.mpr hkept))]
      rfl
    · rw [if_neg hkept, if_neg (not_or.mpr ⟨hslot, fun h => hkept (hkept_iff.mp h)⟩)]
      exact clearPending_eq_remove

theorem foldl_cancelSlot_fst (keepGuardianChanges : Bool) (rest : List (Fin maxPending))
    (logs : List Event) :
    (rest.foldl (cancelSlot keepGuardianChanges) (s, logs)).1 =
      s.withTable (rest.foldl
        (SlotTable.Table.clearSlot (keptOnCancel keepGuardianChanges)) s.table) := by
  induction rest generalizing s logs with
  | nil => rfl
  | cons index rest ih =>
      have hslot := cancelSlot_fst (s := s) keepGuardianChanges logs index
      rw [List.foldl_cons, List.foldl_cons]
      rcases hnext : cancelSlot keepGuardianChanges (s, logs) index with ⟨next, logs'⟩
      rw [hnext] at hslot
      dsimp only at hslot
      rw [ih, hslot]
      rfl

theorem cancelPendingChanges_fst (keepGuardianChanges : Bool) :
    (s.cancelPendingChanges keepGuardianChanges).1 =
      s.withTable (s.table.clear (keptOnCancel keepGuardianChanges)) :=
  foldl_cancelSlot_fst keepGuardianChanges _ []

/-- A waiting owner removal. -/
def IsRemoval (change : PendingChange) : Prop :=
  change.changeKind = Changes.removeOwner

instance : DecidablePred IsRemoval :=
  fun change => inferInstanceAs (Decidable (change.changeKind = Changes.removeOwner))

/-- What the loop of `check_schedule` establishes about the slots it visits. -/
theorem foldlM_checkSlot {dataHash : B256} {seen removals : UInt64}
    (rest : List (Fin maxPending)) (hseen : seen.toNat + rest.length < 2 ^ 64)
    (hloop : rest.foldlM (s.checkSlot dataHash) seen = .ok removals) :
    (∀ index ∈ rest, s.pendingIds index ≠ 0 →
        (s.pending (s.pendingIds index)).payloadHash ≠ dataHash) ∧
      removals.toNat = seen.toNat + rest.countP fun index =>
        s.pendingIds index ≠ 0 ∧ IsRemoval (s.pending (s.pendingIds index)) := by
  induction rest generalizing seen with
  | nil =>
      simp only [List.foldlM_nil, pure_eq_ok] at hloop
      simp [hloop]
  | cons index rest ih =>
      simp only [List.foldlM_cons, bind_eq_ok] at hloop
      obtain ⟨next, hslot, hloop⟩ := hloop
      rw [List.length_cons] at hseen
      unfold checkSlot at hslot
      dsimp only at hslot
      split_ifs at hslot with hfree hremoval
      · obtain rfl := pure_eq_ok.mp hslot
        obtain ⟨hdistinct, hcount⟩ := ih (by omega) hloop
        refine ⟨fun i hi hid => ?_, ?_⟩
        · rcases List.mem_cons.mp hi with rfl | hi
          · exact absurd hfree hid
          · exact hdistinct i hi hid
        · rw [hcount, List.countP_cons_of_neg (by simp [hfree])]
      all_goals
        simp only [bind_eq_ok, rejectIf_eq_ok, pure_eq_ok] at hslot
        obtain ⟨-, hhash, rfl⟩ := hslot
      · have hsucc : (seen + 1).toNat = seen.toNat + 1 := by
          rw [UInt64.toNat_add, UInt64.toNat_one]
          omega
        obtain ⟨hdistinct, hcount⟩ := ih (by omega) hloop
        refine ⟨fun i hi hid => ?_, ?_⟩
        · rcases List.mem_cons.mp hi with rfl | hi
          · exact hhash
          · exact hdistinct i hi hid
        · rw [hcount, hsucc, List.countP_cons_of_pos (by simp [hfree, IsRemoval, hremoval])]
          omega
      · obtain ⟨hdistinct, hcount⟩ := ih (by omega) hloop
        refine ⟨fun i hi hid => ?_, ?_⟩
        · rcases List.mem_cons.mp hi with rfl | hi
          · exact hhash
          · exact hdistinct i hi hid
        · rw [hcount, List.countP_cons_of_neg (by simp [IsRemoval, hremoval])]

end VeraKeyAccount

end VeraKey
