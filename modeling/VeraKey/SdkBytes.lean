/-
The SDK's byte helpers.  A text of the SDK is the list of its characters' bytes, a
big integer a natural number; a helper that throws returns nothing.
-/
import VeraKey.TextCodec
import VeraKey.Word

namespace VeraKey

open ByteCodec TextCodec

/-- Byte strings are compared byte by byte. -/
instance : LawfulBEq Bytes := inferInstance

namespace Sdk

/-- `0x` and two digits a byte. -/
def bytesToHex (bytes : Bytes) : Bytes := ascii "0x" ++ hexText bytes

/-- `BigInt` of a `0x` text, which throws when no digit follows. -/
def bigInt (text : Bytes) : Option ℕ :=
  if text.take 2 = ascii "0x" ∧ text.length > 2 then hexNat (text.drop 2) else none

/-- `0x${value.toString(16).padStart(64, "0")}`. -/
def toFieldHex (value : ℕ) : Bytes := ascii "0x" ++ padStart 64 48 (hexNumber value)

def bytesToBigint (bytes : Bytes) : Option ℕ :=
  if bytes.length = 0 then some 0 else bigInt (bytesToHex bytes)

/-- Splits 32 bytes into (high, low) 16-byte limbs. -/
def limbs (bytes32 : Bytes) : Option (ℕ × ℕ) := do
  if bytes32.length ≠ 32 then failure
  return (← bytesToBigint (bytes32.take 16), ← bytesToBigint (bytes32.drop 16))

theorem bigInt_bytesToHex {bytes : Bytes} (hbytes : bytes ≠ []) :
    bigInt (bytesToHex bytes) = some (beNat bytes) := by
  have hpos := List.length_pos_of_ne_nil hbytes
  have hlength : (bytesToHex bytes).length > 2 := by
    rw [bytesToHex, List.length_append, length_hexText, show (ascii "0x").length = 2 from rfl]
    omega
  rw [bigInt, if_pos ⟨rfl, hlength⟩]
  exact hexNat_hexText bytes

@[simp]
theorem bytesToBigint_eq (bytes : Bytes) : bytesToBigint bytes = some (beNat bytes) := by
  by_cases hbytes : bytes = []
  · subst hbytes
    rfl
  · have hlength : bytes.length ≠ 0 := mt List.eq_nil_of_length_eq_zero hbytes
    rw [bytesToBigint, if_neg hlength, bigInt_bytesToHex hbytes]

theorem limbs_eq {bytes32 : Bytes} (hlength : bytes32.length = 32) :
    limbs bytes32 = some (beNat (bytes32.take 16), beNat (bytes32.drop 16)) := by
  simp [limbs, hlength]

/-- A field element's text is the text of its 32 bytes. -/
theorem toFieldHex_toNat (value : B256) : toFieldHex value.toNat = bytesToHex value.bytes := by
  have hlt : value.toNat < 16 ^ 64 := value.toNat_lt
  have hbytes : beBytes 32 value.toNat = value.bytes := by
    have h := beBytes_beNat value.bytes
    rwa [value.length_eq] at h
  rw [bytesToHex, ← hbytes, hexText_beBytes, ← padStart_hexNumber (by decide) hlt]
  rfl

end Sdk

end VeraKey
