/-
Configuration changes as values that are valid by construction.  A payload
passes the byte-level check exactly when it is the ABI encoding of one of them,
and the byte-level comparisons read the encoded values back.
-/
import VeraKey.Changes

namespace VeraKey

open ByteCodec

/-- A nonzero canonical field element, the only kind of owner. -/
structure Nullifier where
  value : B256
  ne_zero : value ≠ 0
  canonical : isFieldElement value = true
deriving DecidableEq

inductive Change
  | addOwner (nullifier : Nullifier)
  | removeOwner (nullifier : Nullifier)
  | setLimits (perTx daily : U128) (pos : perTx ≠ 0) (le : perTx ≤ daily)
  | setRecipient (recipient : Address) (ne_zero : recipient ≠ 0) (allowed : Bool)
  | setAllowlist (enabled : Bool)
  | setGuardian (commitment : B256)
  | setNewPayeeCap (cap : U128)
  | freeze
  | unfreeze
  | setPaymentSheet (required : Bool)

namespace Change

def kind : Change → UInt8
  | addOwner _ => Changes.addOwner
  | removeOwner _ => Changes.removeOwner
  | setLimits .. => Changes.setLimits
  | setRecipient .. => Changes.setRecipient
  | setAllowlist _ => Changes.setAllowlist
  | setGuardian _ => Changes.setGuardian
  | setNewPayeeCap _ => Changes.setNewPayeeCap
  | freeze => Changes.freeze
  | unfreeze => Changes.unfreeze
  | setPaymentSheet _ => Changes.setPaymentSheet

/-- The ABI encoding of a change. -/
def payload : Change → Bytes
  | addOwner nullifier | removeOwner nullifier => nullifier.value.bytes
  | setLimits perTx daily .. => Changes.u128Word perTx ++ Changes.u128Word daily
  | setRecipient recipient _ allowed =>
      addressWord recipient ++ Changes.boolWord allowed
  | setAllowlist enabled => Changes.boolWord enabled
  | setGuardian commitment => commitment.bytes
  | setNewPayeeCap cap => Changes.u128Word cap
  | freeze | unfreeze => []
  | setPaymentSheet required => Changes.boolWord required

/-- The change leaves every fee up to `maxFee` payable in one transaction. -/
def KeepsFeesPayable (maxFee : ℕ) : Change → Prop
  | setLimits perTx .. => maxFee ≤ perTx.toNat
  | _ => True

/-- The change only tightens limits `current`. -/
def Restrictive (current : Changes.Limits) : Change → Prop
  | setLimits perTx daily .. =>
      perTx.toNat ≤ current.perTxCap.toNat ∧ daily.toNat ≤ current.dailyCap.toNat
  | setNewPayeeCap cap => cap.toNat ≤ current.newPayeeCap.toNat
  | setAllowlist enabled => enabled = true
  | setPaymentSheet required => required = true
  | setRecipient _ _ allowed => allowed = false
  | freeze => True
  | _ => False

theorem kind_ne_zero (c : Change) : c.kind ≠ 0 := by
  cases c <;> simp +decide [kind]

@[simp]
theorem kind_eq_freeze {c : Change} : c.kind = Changes.freeze ↔ c = .freeze := by
  cases c <;> simp +decide [kind]

@[simp]
theorem kind_eq_setGuardian {c : Change} :
    c.kind = Changes.setGuardian ↔ ∃ commitment, c = .setGuardian commitment := by
  cases c <;> simp +decide [kind]

@[simp]
theorem kind_eq_removeOwner {c : Change} :
    c.kind = Changes.removeOwner ↔ ∃ nullifier, c = .removeOwner nullifier := by
  cases c <;> simp +decide [kind]

theorem isValid_payload (c : Change) : Changes.isValid c.kind c.payload = true := by
  cases c with
  | addOwner nullifier =>
      simp +decide [Changes.isValid, kind, payload, nullifier.ne_zero, nullifier.canonical]
  | removeOwner nullifier =>
      simp +decide [Changes.isValid, kind, payload, nullifier.ne_zero, nullifier.canonical]
  | setLimits perTx daily pos le =>
      simp +decide [Changes.isValid, kind, payload, le]
      exact pos
  | setRecipient recipient ne_zero allowed =>
      simp +decide [Changes.isValid, kind, payload, ne_zero]
  | setAllowlist enabled => simp +decide [Changes.isValid, kind, payload]
  | setGuardian commitment => simp +decide [Changes.isValid, kind, payload]
  | setNewPayeeCap cap => simp +decide [Changes.isValid, kind, payload]
  | freeze => rfl
  | unfreeze => rfl
  | setPaymentSheet required => simp +decide [Changes.isValid, kind, payload]

/-- The byte-level check accepts nothing but encodings of changes. -/
theorem exists_of_isValid {kind : UInt8} {payload : Bytes}
    (h : Changes.isValid kind payload = true) :
    ∃ c : Change, c.kind = kind ∧ c.payload = payload := by
  unfold Changes.isValid at h
  split_ifs at h with hOwner hLimits hRecipient hBool hGuardian hCap hFreeze
  · cases hvalue : FixedBytes.ofSlice? 32 payload with
    | none => simp [hvalue] at h
    | some value =>
        rw [hvalue] at h
        simp only [Option.any_some, ne_eq, decide_not, Bool.and_eq_true,
          Bool.not_eq_true', decide_eq_false_iff_not] at h
        rw [FixedBytes.ofSlice?_eq_some] at hvalue
        rcases hOwner with rfl | rfl
        · exact ⟨.addOwner ⟨value, h.1, h.2⟩, rfl, hvalue⟩
        · exact ⟨.removeOwner ⟨value, h.1, h.2⟩, rfl, hvalue⟩
  · subst hLimits
    simp only [Bool.and_eq_true, decide_eq_true_eq] at h
    obtain ⟨hlength, hwords⟩ := h
    split at hwords
    · rename_i perTx daily hperTx hdaily
      simp only [ne_eq, decide_not, Bool.and_eq_true, Bool.not_eq_true',
        decide_eq_false_iff_not, decide_eq_true_eq] at hwords
      rw [Changes.wordU128_eq_some] at hperTx hdaily
      refine ⟨.setLimits perTx daily hwords.1 hwords.2, rfl, ?_⟩
      rw [Change.payload, ← hperTx, ← hdaily, List.take_append_drop]
    · contradiction
  · subst hRecipient
    simp only [Bool.and_eq_true, decide_eq_true_eq, Option.isSome_iff_exists] at h
    obtain ⟨⟨hlength, hrecipient⟩, allowed, hallowed⟩ := h
    cases hword : Changes.wordAddress (payload.take 32) with
    | none => simp [hword] at hrecipient
    | some recipient =>
        have hne : recipient ≠ 0 := by simpa [hword] using hrecipient
        rw [Changes.wordAddress_eq_some] at hword
        rw [Changes.wordBool_eq_some] at hallowed
        refine ⟨.setRecipient recipient hne allowed, rfl, ?_⟩
        rw [Change.payload, ← hword, ← hallowed, List.take_append_drop]
  · obtain ⟨value, hvalue⟩ := Option.isSome_iff_exists.mp h
    rw [Changes.wordBool_eq_some] at hvalue
    rcases hBool with rfl | rfl
    · exact ⟨.setAllowlist value, rfl, hvalue.symm⟩
    · exact ⟨.setPaymentSheet value, rfl, hvalue.symm⟩
  · subst hGuardian
    exact ⟨.setGuardian ⟨payload, of_decide_eq_true h⟩, rfl, rfl⟩
  · subst hCap
    obtain ⟨cap, hcap⟩ := Option.isSome_iff_exists.mp h
    rw [Changes.wordU128_eq_some] at hcap
    exact ⟨.setNewPayeeCap cap, rfl, hcap.symm⟩
  · have hnil : payload = [] := List.isEmpty_iff.mp h
    rcases hFreeze with rfl | rfl
    · exact ⟨.freeze, rfl, hnil.symm⟩
    · exact ⟨.unfreeze, rfl, hnil.symm⟩

theorem keepsFeesPayable_payload (c : Change) (maxFee : U256) :
    Changes.keepsFeesPayable c.kind c.payload maxFee = true ↔
      c.KeepsFeesPayable maxFee.toNat := by
  cases c <;>
    simp +decide [Changes.keepsFeesPayable, kind, payload, KeepsFeesPayable,
      BitVec.le_def]

theorem isRestrictive_payload (c : Change) (current : Changes.Limits) :
    Changes.isRestrictive c.kind c.payload current = true ↔ c.Restrictive current := by
  have hvalid := c.isValid_payload
  unfold Changes.isRestrictive
  rw [hvalid]
  cases c <;>
    simp +decide [kind, payload, Restrictive, BitVec.le_def]

end Change

end VeraKey
