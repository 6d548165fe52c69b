/-
The fixed-width words the contracts compute with: 64-, 128- and 256-bit
integers, 32-byte hashes and 20-byte addresses, and the conversions between
them.  A narrowing conversion that does not fit aborts the call, so it is
partial here; plain addition wraps.
-/
import VeraKey.ByteCodec

namespace VeraKey

open ByteCodec

abbrev U128 := BitVec 128

abbrev U256 := BitVec 256

abbrev B256 := FixedBytes 32

abbrev Address := FixedBytes 20

namespace U256

def ofU64 (value : UInt64) : U256 := BitVec.ofNat 256 value.toNat

def ofU8 (value : UInt8) : U256 := BitVec.ofNat 256 value.toNat

def ofU128 (value : U128) : U256 := value.setWidth 256

/-- `to::<u128>()`, which aborts on a value of more than 128 bits. -/
def toU128? (value : U256) : Option U128 :=
  if value.toNat < 2 ^ 128 then some (value.setWidth 128) else none

/-- `to::<u64>()`, which aborts on a value of more than 64 bits. -/
def toU64? (value : U256) : Option UInt64 :=
  if value.toNat < 2 ^ 64 then some (UInt64.ofNat value.toNat) else none

def checkedAdd (left right : U256) : Option U256 :=
  if left.toNat + right.toNat < 2 ^ 256 then some (left + right) else none

def saturatingSub (left right : U256) : U256 :=
  if right ≤ left then left - right else 0

protected def min (left right : U256) : U256 :=
  if left ≤ right then left else right

/-- `to_be_bytes::<32>()`. -/
def toBeBytes (value : U256) : Bytes := beBytes 32 value.toNat

/-- `from_be_slice`, for slices of at most 32 bytes. -/
def fromBeSlice (bytes : Bytes) : U256 := BitVec.ofNat 256 (beNat bytes)

@[simp]
theorem toNat_ofU64 (value : UInt64) : (ofU64 value).toNat = value.toNat := by
  have h := value.toNat_lt
  simp only [ofU64, BitVec.toNat_ofNat]
  omega

@[simp]
theorem toNat_ofU8 (value : UInt8) : (ofU8 value).toNat = value.toNat := by
  have h := value.toNat_lt
  simp only [ofU8, BitVec.toNat_ofNat]
  omega

@[simp]
theorem toNat_ofU128 (value : U128) : (ofU128 value).toNat = value.toNat := by
  have h := value.isLt
  simp only [ofU128, BitVec.toNat_setWidth]
  omega

theorem ofU64_inj {left right : UInt64} (heq : ofU64 left = ofU64 right) :
    left = right := by
  rw [← UInt64.toNat_inj, ← toNat_ofU64, ← toNat_ofU64, heq]

theorem ofU8_inj {left right : UInt8} (heq : ofU8 left = ofU8 right) :
    left = right := by
  rw [← UInt8.toNat_inj, ← toNat_ofU8, ← toNat_ofU8, heq]

theorem toU128?_eq_some {value : U256} {low : U128} :
    toU128? value = some low ↔ low.toNat = value.toNat := by
  have h := low.isLt
  unfold toU128?
  constructor
  · split
    · rintro ⟨rfl⟩
      simp only [BitVec.toNat_setWidth]
      omega
    · simp
  · intro heq
    rw [if_pos (heq ▸ h), Option.some.injEq, ← BitVec.toNat_inj,
      BitVec.toNat_setWidth, ← heq]
    exact Nat.mod_eq_of_lt h

theorem toU64?_eq_some {value : U256} {low : UInt64} :
    toU64? value = some low ↔ low.toNat = value.toNat := by
  have h := low.toNat_lt
  unfold toU64?
  constructor
  · split
    · rintro ⟨rfl⟩
      rw [UInt64.toNat_ofNat']
      omega
    · simp
  · intro heq
    rw [if_pos (heq ▸ h), Option.some.injEq, ← UInt64.toNat_inj,
      UInt64.toNat_ofNat', ← heq]
    exact Nat.mod_eq_of_lt h

theorem checkedAdd_eq_some {left right sum : U256} :
    checkedAdd left right = some sum ↔ sum.toNat = left.toNat + right.toNat := by
  have h := sum.isLt
  unfold checkedAdd
  constructor
  · split
    · rintro ⟨rfl⟩
      simp only [BitVec.toNat_add]
      omega
    · simp
  · intro heq
    rw [if_pos (heq ▸ h), Option.some.injEq, ← BitVec.toNat_inj,
      BitVec.toNat_add, ← heq]
    exact Nat.mod_eq_of_lt h

@[simp]
theorem toNat_saturatingSub (left right : U256) :
    (saturatingSub left right).toNat = left.toNat - right.toNat := by
  unfold saturatingSub
  split
  · rename_i hle
    exact BitVec.toNat_sub_of_le hle
  · rename_i hlt
    rw [BitVec.le_def] at hlt
    simp only [BitVec.ofNat_eq_ofNat, BitVec.toNat_ofNat, Nat.zero_mod]
    omega

@[simp]
theorem toNat_min (left right : U256) :
    (U256.min left right).toNat = Min.min left.toNat right.toNat := by
  unfold U256.min
  split
  · rename_i hle
    rw [BitVec.le_def] at hle
    exact (Nat.min_eq_left hle).symm
  · rename_i hlt
    rw [BitVec.le_def] at hlt
    exact (Nat.min_eq_right (by omega)).symm

theorem toBeBytes_inj {left right : U256} (heq : toBeBytes left = toBeBytes right) :
    left = right :=
  BitVec.toNat_inj.mp (beBytes_inj left.isLt right.isLt heq)

@[simp]
theorem length_toBeBytes (value : U256) : (toBeBytes value).length = 32 :=
  length_beBytes 32 value.toNat

end U256

/-- An address, right-aligned in its ABI word. -/
def addressWord (value : Address) : Bytes := List.replicate 12 0 ++ value.bytes

@[simp]
theorem length_addressWord (value : Address) : (addressWord value).length = 32 := by
  simp [addressWord]

theorem addressWord_inj {left right : Address}
    (heq : addressWord left = addressWord right) : left = right := by
  rw [addressWord, addressWord, List.append_right_inj] at heq
  exact FixedBytes.ext heq

end VeraKey
