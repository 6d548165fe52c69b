/-
The owner set over whole runs: its counter counts exactly the owners, there is
always one, and entries of other epochs make nobody an owner.
-/
import VeraKey.Owners

namespace VeraKey

open ByteCodec VeraKeyAccount KeyedSet

variable {host : Host} {vm : Vm} {s s' : VeraKeyAccount} {call : Call}
  {transfers : List Transfer}

/-- What holds of the owner fields in every reachable state. -/
structure OwnersInvariant (host : Host) (s : VeraKeyAccount) : Prop where
  sound : s.initialized = true → ∃ members, OwnersSound host s members
  recovery : RecoverySound s
  withinNonce : OwnersWithinNonce s

theorem ownersInvariant_fresh : OwnersInvariant host .fresh where
  sound hinit := absurd hinit Bool.false_ne_true
  recovery heta := absurd rfl heta
  withinNonce := by
    rw [OwnersWithinNonce, idsWith_fresh (not_not.mpr rfl), Set.ncard_empty]
    exact Nat.zero_le 1

/-- The next epoch has no entry before its first owner is written. -/
theorem OwnersSound.toNat_succ_epoch (hepoch : s.ownerEpoch.toNat < 2 ^ 256 - 1) :
    (s.ownerEpoch + 1).toNat = s.ownerEpoch.toNat + 1 := by
  rw [BitVec.toNat_add]
  exact Nat.mod_eq_of_lt (by simp; omega)

/-- One call keeps the owner set and its counter in agreement. -/
theorem Step.ownersSound (h : Step host vm s call s' transfers)
    (hinv : OwnersInvariant host s) (hfresh : s = .fresh ∨ s.initialized = true)
    (hkeys : ∀ entry ∈ call.entries s, OwnKey host entry.1 entry.2)
    (hnonce : s.nonce.toNat < 2 ^ 64 - 1) (hepoch : s.ownerEpoch.toNat < 2 ^ 256 - 1) :
    ∃ members, OwnersSound host s' members := by
  rcases hfresh with rfl | hinit
  · obtain ⟨c, rfl⟩ := h.of_fresh
    cases h.ownersMove with
    | same _ hcount =>
        cases h
        exact absurd (show (1 : UInt64) = 0 from hcount) (by decide)
    | initialized _ hvalid howners hcount hsame =>
        exact ⟨_, ownersSound_singleton (fun _ => rfl) (fun _ _ _ => rfl)
          (hkeys (_, _) rfl) hvalid howners hcount hsame⟩
  · obtain ⟨members, hsound⟩ := hinv.sound hinit
    cases h.ownersMove with
    | same howners hcount hsame => exact ⟨members, hsound.congr howners hcount hsame⟩
    | initialized hfresh => exact absurd (hinit.symm.trans hfresh) (by decide)
    | added habsent howners hcount hsame =>
        obtain ⟨c, happlies⟩ := h.applies
        have hsucc := happlies.toNat_ownerCount_succ hinv.withinNonce hnonce
        exact ⟨_, hsound.add (hkeys (_, _) ⟨Or.inl rfl, rfl, rfl⟩) habsent hsucc howners
          hcount hsame⟩
    | removed howner hlast howners hcount hsame =>
        exact ⟨_, hsound.remove howner hlast howners hcount hsame⟩
    | recovered heta howners hcount hnext =>
        have hsucc := OwnersSound.toNat_succ_epoch hepoch
        have hnone : ∀ m, member s.owners (ownerKey host) (s.ownerEpoch + 1) m = false :=
          fun m => hsound.noneAfter _ m (by omega)
        exact ⟨_, ownersSound_singleton hnone (hsound.noneAfter.mono (by omega))
          (hkeys (s.ownerEpoch + 1, s.recoveryNullifier) rfl) (hinv.recovery heta) howners
          hcount hnext⟩

/-- The only entries a call changes are those it names. -/
theorem Step.owners_eq (h : Step host vm s call s' transfers) {key : B256}
    (hother : ∀ entry ∈ call.entries s, ownerKey host entry.1 entry.2 ≠ key) :
    s'.owners key = s.owners key := by
  cases h.ownersMove with
  | same howners => rw [howners]
  | initialized _ _ howners =>
      rw [howners, Function.update_of_ne (hother (_, _) rfl).symm]
  | added _ howners =>
      rw [howners, Function.update_of_ne (hother (_, _) ⟨Or.inl rfl, rfl, rfl⟩).symm]
  | removed _ _ howners =>
      rw [howners, Function.update_of_ne (hother (_, _) ⟨Or.inr rfl, rfl, rfl⟩).symm]
  | recovered _ howners =>
      rw [howners, Function.update_of_ne (hother (_, _) rfl).symm]

namespace Run

/-- No two (epoch, nullifier) pairs have the same entry key, if one of them is
ever written. -/
def KeysInjective (r : Run) : Prop :=
  ∀ n, r.Succeeds n → ∀ entry ∈ (r.call n).entries (r.state n),
    OwnKey r.host entry.1 entry.2

variable {r : Run}

theorem ownersInvariant (hnonce : r.NonceFits) (hepoch : r.EpochFits)
    (hkeys : r.KeysInjective) (n : ℕ) : OwnersInvariant r.host (r.state n) := by
  induction n with
  | zero => exact ownersInvariant_fresh
  | succ n ih =>
      by_cases hsucceeds : r.Succeeds n
      · have hstep := hsucceeds.step
        have hfresh := r.fresh_or_initialized n
        have hpos : (r.state n).initialized = true → 0 < (r.state n).ownerCount.toNat := by
          intro hinit
          obtain ⟨members, hsound⟩ := ih.sound hinit
          exact hsound.pos
        constructor
        · intro _
          exact hstep.ownersSound ih hfresh (hkeys n hsucceeds) (hnonce n) (hepoch n)
        · exact hstep.recoverySound ih.recovery
        · exact hstep.ownersWithinNonce ih.withinNonce (hnonce n) hpos hfresh.symm
      · rw [(state_succ_of_not_succeeds hsucceeds).1]
        exact ih

theorem exists_ownersSound (hnonce : r.NonceFits) (hepoch : r.EpochFits)
    (hkeys : r.KeysInjective) {n : ℕ} (hinit : (r.state n).initialized = true) :
    ∃ members, OwnersSound r.host (r.state n) members :=
  (ownersInvariant hnonce hepoch hkeys n).sound hinit

/-- An owner was written as such under the epoch it owns the account in. -/
theorem exists_entry (hkeys : r.KeysInjective) {n : ℕ} {nullifier : B256}
    (howner : (r.state n).owner r.host nullifier = true) :
    ∃ k < n, r.Succeeds k ∧
      ((r.state n).ownerEpoch, nullifier) ∈ (r.call k).entries (r.state k) := by
  obtain ⟨k, -, hkn, hbefore, hafter⟩ := History.exists_last_rise
    (p := fun k => (r.state k).owners
      (ownerKey r.host (r.state n).ownerEpoch nullifier) = true)
    (Nat.zero_le n) Bool.false_ne_true howner
  have hnext := hafter (k + 1) k.lt_succ_self hkn
  have hsucceeds : r.Succeeds k := by
    by_contra hfails
    rw [(state_succ_of_not_succeeds hfails).1] at hnext
    exact hbefore hnext
  refine ⟨k, hkn, hsucceeds, ?_⟩
  by_contra hnot
  apply hbefore
  rw [← hsucceeds.step.owners_eq]
  · exact hnext
  · intro entry hentry hkey
    have hsame := hkeys k hsucceeds entry hentry _ _ hkey.symm
    apply hnot
    rw [hsame.1, hsame.2]
    exact hentry

end Run

/-- In every reachable state of an initialized account the counter counts the
owners, there is at least one, each is a nonzero canonical field element, no
entry of another epoch has an owner's key, every owner was written under the
current epoch, and no later epoch has an entry. -/
theorem Run.owner_set (r : Run) (hnonce : r.NonceFits) (hepoch : r.EpochFits)
    (hkeys : r.KeysInjective) (n : ℕ) (hinit : (r.state n).initialized = true) :
    {nullifier | (r.state n).owner r.host nullifier = true}.ncard =
        (r.state n).ownerCount.toNat ∧
      1 ≤ (r.state n).ownerCount.toNat ∧
      (∀ nullifier, (r.state n).owner r.host nullifier = true →
        ValidOwner nullifier ∧
          (∀ epoch other, epoch ≠ (r.state n).ownerEpoch →
            ownerKey r.host epoch other ≠
              ownerKey r.host (r.state n).ownerEpoch nullifier) ∧
          ∃ k < n, r.Succeeds k ∧
            ((r.state n).ownerEpoch, nullifier) ∈ (r.call k).entries (r.state k)) ∧
      ∀ epoch nullifier, (r.state n).ownerEpoch.toNat < epoch.toNat →
        (r.state n).owners (ownerKey r.host epoch nullifier) = false := by
  obtain ⟨members, hsound⟩ := exists_ownersSound hnonce hepoch hkeys hinit
  have hset : {nullifier | (r.state n).owner r.host nullifier = true} = ↑members :=
    Set.ext fun nullifier => (hsound.mem_iff nullifier).symm
  refine ⟨?_, hsound.pos, ?_, hsound.noneAfter⟩
  · rw [hset, Set.ncard_coe_finset, hsound.count]
  · intro nullifier howner
    have hmem := (hsound.mem_iff nullifier).mpr howner
    refine ⟨hsound.valid nullifier hmem, ?_, exists_entry hkeys howner⟩
    intro epoch other hne hkey
    exact hne (hsound.ownKey nullifier hmem epoch other hkey).1

/-! ## One history -/

theorem ownKey_of_mem {t : HashTable} (htable : host.keccak = t.hash) {epoch : U256}
    {nullifier : B256} (hmem : ownerKeyPreimage epoch nullifier ∈ t.inputs) :
    OwnKey host epoch nullifier := by
  intro epoch' nullifier' heq
  rw [ownerKey, ownerKey, htable] at heq
  have hpreimage := HashTable.eq_of_hash_eq hmem heq
  have hlength : epoch'.toBeBytes.length = epoch.toBeBytes.length := by simp
  obtain ⟨hepoch, hnullifier⟩ := List.append_inj hpreimage hlength
  exact ⟨U256.toBeBytes_inj hepoch, FixedBytes.ext hnullifier⟩

namespace Sample

theorem epochFits : run.EpochFits := FiniteRun.epochFits (by decide)

theorem keysInjective : run.KeysInjective := by
  intro n hsucceeds entry hentry
  have hn : n < 7 := FiniteRun.lt_of_succeeds hsucceeds
  interval_cases n
  · obtain rfl : entry = (0, firstOwner) := hentry
    exact ownKey_of_mem (t := keccaks) rfl (by decide +kernel)
  · exact absurd hentry id
  · exact absurd hentry id
  · exact absurd hentry.1 (by decide)
  · exact absurd hentry id
  · exact absurd hentry id
  · obtain rfl : entry = ((run.state 6).ownerEpoch + 1, (run.state 6).recoveryNullifier) :=
      hentry
    rw [checked.2.1, checked.2.2.1]
    exact ownKey_of_mem (t := keccaks) rfl (by decide +kernel)

end Sample

theorem owner_set_sample :
    {nullifier | (Sample.run.state 7).owner Sample.host nullifier = true}.ncard =
      (Sample.run.state 7).ownerCount.toNat :=
  (Run.owner_set Sample.run Sample.nonceFits Sample.epochFits Sample.keysInjective 7
    (Sample.initialized (by decide))).1

end VeraKey
