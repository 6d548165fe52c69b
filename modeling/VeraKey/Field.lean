/-
BN254 scalar-field helpers for the proof's public inputs.
-/
import VeraKey.Word

namespace VeraKey

open ByteCodec

/-- The BN254 scalar field modulus. -/
def bn254R : ℕ :=
  0x30644e72e131a029b85045b68181585d2833e84879b9709143e1f593f0000001

/-- `value` is a canonical BN254 scalar field element. -/
def isFieldElement (value : B256) : Bool := value.toNat < bn254R

/-- The high and low 16 bytes of a hash, each right-aligned in a 32-byte word. -/
def splitLimbs (hash : B256) : B256 × B256 :=
  (⟨List.replicate 16 0 ++ hash.bytes.take 16, by simp⟩,
    ⟨List.replicate 16 0 ++ hash.bytes.drop 16, by simp⟩)

/-- An app id and a nullifier that an account can be made for. -/
@[ext]
structure AccountPair where
  appId : B256
  nullifier : B256
  appId_valid : isFieldElement appId = true
  nullifier_valid : isFieldElement nullifier = true
  nullifier_ne_zero : nullifier ≠ 0

/-- Such a pair. -/
def Accepted (appId nullifier : B256) : Prop :=
  ∃ pair : AccountPair, pair.appId = appId ∧ pair.nullifier = nullifier

/-- The check of `create_account`, of `initialize` and of the validator's `onInstall`. -/
theorem accepted_iff {appId nullifier : B256} : Accepted appId nullifier ↔
    ¬ (¬ isFieldElement appId ∨ ¬ isFieldElement nullifier ∨ nullifier = 0) := by
  push Not
  constructor
  · rintro ⟨pair, rfl, rfl⟩
    exact ⟨pair.appId_valid, pair.nullifier_valid, pair.nullifier_ne_zero⟩
  · rintro ⟨happId, hnullifier, hzero⟩
    exact ⟨⟨appId, nullifier, happId, hnullifier, hzero⟩, rfl, rfl⟩

end VeraKey
