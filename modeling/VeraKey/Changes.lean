/-
Configuration changes: kinds, payload layouts, validation, and which changes
may apply at once.  A valid payload is the ABI encoding of one typed change.
-/
import VeraKey.Field

namespace VeraKey

namespace Changes

open ByteCodec

abbrev addOwner : UInt8 := 1
abbrev removeOwner : UInt8 := 2
abbrev setLimits : UInt8 := 3
abbrev setRecipient : UInt8 := 4
abbrev setAllowlist : UInt8 := 5
abbrev setGuardian : UInt8 := 6
abbrev setNewPayeeCap : UInt8 := 7
abbrev freeze : UInt8 := 8
abbrev unfreeze : UInt8 := 9
abbrev setPaymentSheet : UInt8 := 10

/-- `keccak256("VeraKeyGuardian(address account,address guardian,bytes32 salt)")` -/
def guardianTypehash : Bytes :=
  [0xf3, 0x3d, 0x40, 0x55, 0xd6, 0xc5, 0xcd, 0x8c, 0xf1, 0xe8, 0x58, 0x4e,
    0x76, 0x25, 0xa8, 0xe7, 0x78, 0xa2, 0xe5, 0xab, 0xf8, 0x16, 0x8e, 0xd8,
    0xb7, 0xf8, 0x8c, 0x28, 0xdb, 0xf6, 0xc8, 0xe8]

/-- `abi.encode(GUARDIAN_TYPEHASH, account, guardian, salt)`. -/
def guardianPreimage (account guardian : Address) (salt : B256) : Bytes :=
  guardianTypehash ++ List.replicate 12 0 ++ account.bytes ++
    List.replicate 12 0 ++ guardian.bytes ++ salt.bytes

/-- Decodes an ABI `address` word, rejecting dirty high bytes. -/
def wordAddress (word : Bytes) : Option Address :=
  if word.length ≠ 32 ∨ (word.take 12).any (· ≠ 0) then none
  else FixedBytes.ofSlice? 20 (word.drop 12)

/-- Decodes an ABI `bool` word, rejecting anything but 0 or 1. -/
def wordBool (word : Bytes) : Option Bool :=
  if word.length ≠ 32 ∨ (word.take 31).any (· ≠ 0) then none
  else
    match word.getD 31 0 with
    | 0 => some false
    | 1 => some true
    | _ => none

/-- Decodes an ABI `uint256` word that must fit in 128 bits. -/
def wordU128 (word : Bytes) : Option U128 :=
  if word.length ≠ 32 ∨ (word.take 16).any (· ≠ 0) then none
  else some (BitVec.ofNat 128 (beNat (word.drop 16)))

/-- Checks a change payload before it is scheduled. -/
def isValid (kind : UInt8) (payload : Bytes) : Bool :=
  if kind = addOwner ∨ kind = removeOwner then
    (FixedBytes.ofSlice? 32 payload).any fun nullifier =>
      nullifier ≠ 0 && isFieldElement nullifier
  else if kind = setLimits then
    payload.length = 64 &&
      match wordU128 (payload.take 32), wordU128 (payload.drop 32) with
      | some perTx, some daily => perTx ≠ 0 && perTx ≤ daily
      | _, _ => false
  else if kind = setRecipient then
    payload.length = 64 && (wordAddress (payload.take 32)).any (· ≠ 0) &&
      (wordBool (payload.drop 32)).isSome
  else if kind = setAllowlist ∨ kind = setPaymentSheet then
    (wordBool payload).isSome
  else if kind = setGuardian then payload.length = 32
  else if kind = setNewPayeeCap then (wordU128 payload).isSome
  else if kind = freeze ∨ kind = unfreeze then payload.isEmpty
  else false

/-- A limits change may not lower the per-payment cap below the largest fee. -/
def keepsFeesPayable (kind : UInt8) (payload : Bytes) (maxFee : U256) : Bool :=
  kind ≠ setLimits ||
    (payload.length = 64 && U256.fromBeSlice (payload.take 32) ≥ maxFee)

/-- The limits a tightening change is compared against. -/
structure Limits where
  perTxCap : U256
  dailyCap : U256
  newPayeeCap : U256

/-- A valid change only reduces what the account can do. -/
def isRestrictive (kind : UInt8) (payload : Bytes) (current : Limits) : Bool :=
  if !isValid kind payload then false
  else if kind = setLimits then
    U256.fromBeSlice (payload.take 32) ≤ current.perTxCap &&
      U256.fromBeSlice (payload.drop 32) ≤ current.dailyCap
  else if kind = setNewPayeeCap then
    U256.fromBeSlice payload ≤ current.newPayeeCap
  else if kind = setAllowlist ∨ kind = setPaymentSheet then
    wordBool payload = some true
  else if kind = setRecipient then wordBool (payload.drop 32) = some false
  else if kind = freeze then true
  else false

/-! ## ABI words -/

def boolWord (value : Bool) : Bytes :=
  List.replicate 31 0 ++ [if value then 1 else 0]

def u128Word (value : U128) : Bytes :=
  List.replicate 16 0 ++ beBytes 16 value.toNat

@[simp]
theorem length_boolWord (value : Bool) : (boolWord value).length = 32 := by
  simp [boolWord]

@[simp]
theorem length_u128Word (value : U128) : (u128Word value).length = 32 := by
  simp [u128Word]

/-- A word whose first bytes are zero is those zeros and the rest. -/
theorem eq_zeros_append {word : Bytes} {zeros : ℕ} (hlength : zeros ≤ word.length)
    (hzero : (word.take zeros).any (· ≠ 0) = false) :
    word = List.replicate zeros 0 ++ word.drop zeros := by
  have htake : word.take zeros = List.replicate zeros 0 := by
    rw [List.eq_replicate_iff]
    refine ⟨by simpa using hlength, fun byte hbyte => ?_⟩
    simpa using List.any_eq_false.mp hzero byte hbyte
  rw [← htake, List.take_append_drop]

theorem wordAddress_eq_some {word : Bytes} {value : Address} :
    wordAddress word = some value ↔ word = addressWord value := by
  unfold wordAddress
  constructor
  · split
    · simp
    · rename_i hclean
      obtain ⟨hlength, hzero⟩ := not_or.mp hclean
      rw [FixedBytes.ofSlice?_eq_some]
      intro hbytes
      rw [addressWord, hbytes]
      exact eq_zeros_append (by omega) (by simpa using hzero)
  · rintro rfl
    simp [addressWord]

theorem wordBool_eq_some {word : Bytes} {value : Bool} :
    wordBool word = some value ↔ word = boolWord value := by
  unfold wordBool
  constructor
  · split
    · simp
    · rename_i hclean
      obtain ⟨hlength, hzero⟩ := not_or.mp hclean
      have hword := eq_zeros_append (by omega : 31 ≤ word.length) (by simpa using hzero)
      obtain ⟨last, hlast⟩ : ∃ last, word.drop 31 = [last] :=
        List.length_eq_one_iff.mp (by simp; omega)
      have hget : word.getD 31 0 = last := by
        rw [List.getD_eq_getElem?_getD, ← List.head?_drop, hlast]
        rfl
      rw [hget, hword, hlast, boolWord]
      intro hvalue
      split at hvalue
      · rw [← Option.some.inj hvalue]
        rfl
      · rw [← Option.some.inj hvalue]
        rfl
      · contradiction
  · rintro rfl
    cases value <;> rfl

theorem wordU128_eq_some {word : Bytes} {value : U128} :
    wordU128 word = some value ↔ word = u128Word value := by
  unfold wordU128
  constructor
  · split
    · simp
    · rename_i hclean
      obtain ⟨hlength, hzero⟩ := not_or.mp hclean
      have hword := eq_zeros_append (by omega : 16 ≤ word.length) (by simpa using hzero)
      have hrest : (word.drop 16).length = 16 := by simp; omega
      have hlt : beNat (word.drop 16) < 2 ^ 128 := by
        have h := beNat_lt (word.drop 16)
        rwa [hrest] at h
      rintro ⟨rfl⟩
      rw [u128Word, BitVec.toNat_ofNat, Nat.mod_eq_of_lt hlt]
      have hbytes := beBytes_beNat (word.drop 16)
      rw [hrest] at hbytes
      rw [hbytes]
      exact hword
  · rintro rfl
    have hnat : beNat (beBytes 16 value.toNat) = value.toNat :=
      beNat_beBytes value.isLt
    simp [u128Word, hnat]

@[simp]
theorem wordAddress_addressWord (value : Address) :
    wordAddress (addressWord value) = some value :=
  wordAddress_eq_some.mpr rfl

@[simp]
theorem wordBool_boolWord (value : Bool) : wordBool (boolWord value) = some value :=
  wordBool_eq_some.mpr rfl

@[simp]
theorem wordU128_u128Word (value : U128) : wordU128 (u128Word value) = some value :=
  wordU128_eq_some.mpr rfl

@[simp]
theorem fromBeSlice_u128Word (value : U128) :
    U256.fromBeSlice (u128Word value) = U256.ofU128 value := by
  have hnat : beNat (beBytes 16 value.toNat) = value.toNat :=
    beNat_beBytes value.isLt
  rw [← BitVec.toNat_inj, U256.toNat_ofU128, U256.fromBeSlice, u128Word,
    beNat_zeros_append, hnat, BitVec.toNat_ofNat]
  have h := value.isLt
  omega

end Changes

end VeraKey
